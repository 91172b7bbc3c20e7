import Mathlib.Data.List.Induction
import Switchyard.Console
import Switchyard.Proofs.Text.Classes

/-!
# What a console remembers

Between its lines a console remembers two things: the identifier that it was told last, and the
indexes of the steps that were started since then. Who told it so does not matter, since events do
not say to which invocation they belong.

Main statements: what is remembered can be read from the calls (`correlationId_tellAll`,
`lookup_started_tellAll`), it is all that lines depend on (`tell_eq_linesFor`), and it can be read
from them (`linesFor_inj`).
-/

namespace Switchyard

/-! ## §1 What was told last -/

namespace AuditCall

/-- The identifier under which an invocation begins. -/
def identifier? : AuditCall → Option String
  | .identified id => some id
  | .stepStarted .. | .stepEnded .. | .anomaly .. => none

/-- The index with which a call starts a step. -/
def startOf? (step : String) : AuditCall → Option Int
  | .stepStarted other index _ => if other = step then some index else none
  | .identified .. | .stepEnded .. | .anomaly .. => none

/-- The identifier that was told last. -/
def lastIdentifier (calls : List AuditCall) : Option String := calls.reverse.findSome? identifier?

/-- The index with which a step was started last. -/
def lastStart (step : String) (calls : List AuditCall) : Option Int :=
  calls.reverse.findSome? (startOf? step)

/-- What was told since the last identifier. -/
def sinceIdentified (calls : List AuditCall) : List AuditCall :=
  (calls.reverse.takeWhile (·.identifier?.isNone)).reverse

variable {calls : List AuditCall} {call : AuditCall} {step : String}

theorem lastIdentifier_concat :
    lastIdentifier (calls ++ [call]) = call.identifier?.or (lastIdentifier calls) := by
  rw [lastIdentifier, List.reverse_concat, List.findSome?_cons]
  cases call.identifier? <;> rfl

theorem lastStart_concat :
    lastStart step (calls ++ [call]) = (call.startOf? step).or (lastStart step calls) := by
  rw [lastStart, List.reverse_concat, List.findSome?_cons]
  cases call.startOf? step <;> rfl

theorem sinceIdentified_concat :
    sinceIdentified (calls ++ [call]) = if call.identifier?.isSome then
      [] else sinceIdentified calls ++ [call] := by
  rw [sinceIdentified, List.reverse_concat, List.takeWhile_cons]
  cases call.identifier? <;> simp [sinceIdentified]

end AuditCall

/-! ## §2 Memory -/

namespace Console

variable {verbose : Bool} {calls : List AuditCall} {call : AuditCall} {step : String}

/-- A console that has been told nothing. -/
def fresh (verbose : Bool) : Console := { verbose }

/-- The mark of lines under an identifier. -/
def markOf (id : Option String) : String := ({ correlationId := id } : Console).mark

theorem tellAll_concat (console : Console) :
    (console.tellAll (calls ++ [call])).2 = ((console.tellAll calls).2.tell call).2 := by
  rw [tellAll, List.foldl_append]
  rfl

@[simp] theorem verbose_tell {console : Console} :
    (console.tell call).2.verbose = console.verbose := by
  cases call <;> rfl

theorem verbose_tellAll : ((fresh verbose).tellAll calls).2.verbose = verbose := by
  induction calls using List.reverseRecOn with
  | nil => rfl
  | append_singleton calls call ih => rw [tellAll_concat, verbose_tell, ih]

/-- **A console remembers the identifier** that it was told last. -/
theorem correlationId_tellAll :
    ((fresh verbose).tellAll calls).2.correlationId = AuditCall.lastIdentifier calls := by
  induction calls using List.reverseRecOn with
  | nil => rfl
  | append_singleton calls call ih =>
    rw [tellAll_concat, AuditCall.lastIdentifier_concat, ← ih]
    cases call <;> rfl

/-- **A console remembers the index** of each step that was started since it was told
the last identifier. -/
theorem lookup_started_tellAll :
    ((fresh verbose).tellAll calls).2.started.lookup step =
      AuditCall.lastStart step (AuditCall.sinceIdentified calls) := by
  induction calls using List.reverseRecOn with
  | nil => rfl
  | append_singleton calls call ih =>
    rw [tellAll_concat, AuditCall.sinceIdentified_concat]
    cases call with
    | identified id => rfl
    | stepStarted other index metadata =>
      have hstarts : (((fresh verbose).tellAll calls).2.tell
          (.stepStarted other index metadata)).2.started =
          (other, index) :: ((fresh verbose).tellAll calls).2.started := rfl
      rw [hstarts, List.lookup_cons, ih, if_neg (by simp [AuditCall.identifier?]),
        AuditCall.lastStart_concat]
      by_cases hstep : step = other
      · simp [AuditCall.startOf?, hstep]
      · simp [AuditCall.startOf?, beq_eq_false_iff_ne.mpr hstep, Ne.symm hstep]
    | stepEnded other outputs seconds metadata =>
      rw [if_neg (by simp [AuditCall.identifier?]), AuditCall.lastStart_concat]
      exact ih
    | anomaly message severity context =>
      rw [if_neg (by simp [AuditCall.identifier?]), AuditCall.lastStart_concat]
      exact ih

/-! ## §3 Lines -/

/-- How the index of a step is written. -/
def indexText : Option Int → String
  | some index => toString index
  | none => "?"

/-- A line under an identifier. -/
def lineUnder (id : Option String) (level text : String) : String :=
  "[" ++ markOf id ++ "] " ++ padded 5 level ++ " " ++ text

/-- **The lines for an event** under an identifier, where the steps were
started with some indexes. -/
def linesFor (verbose : Bool) (id : Option String) (started : String → Option Int) :
    AuditCall → List String
  | .identified _ => []
  | .stepStarted step index metadata =>
    let uses := match metadata.field? "uses" with
      | some v => v.shown .empty
      | none => "?"
    if verbose then [lineUnder id "INFO" (step ++ "#" ++ toString index ++ " -> " ++ uses)] else []
  | .stepEnded step outputs seconds _ =>
    [lineUnder id "INFO"
      (step ++ "#" ++ indexText (started step) ++ " done in " ++ elapsed seconds ++ " " ++
        outputsText outputs)]
  | .anomaly message severity context =>
    let suffix := match place? context with
      | some v => " [" ++ v.shown .empty ++ "]"
      | none => ""
    [lineUnder id (Text.upper severity) ("!! " ++ message ++ suffix)]

/-- **What a console writes** depends on what it remembers, and on nothing else
of what it was told. -/
theorem tell_eq_linesFor (console : Console) (call : AuditCall) :
    (console.tell call).1 =
      linesFor console.verbose console.correlationId (console.started.lookup ·) call := by
  cases call with
  | identified id => rfl
  | stepStarted step index metadata => rfl
  | stepEnded step outputs seconds metadata =>
    simp only [tell, linesFor]
    cases console.started.lookup step <;> rfl
  | anomaly message severity context => rfl

/-! ## §4 What can be read from lines -/

/-- The index that a text stands for. -/
def readIndex : List Char → Option Int
  | '?' :: _ => none
  | '-' :: digits => some (-Text.decimalValue digits)
  | digits => some (Text.decimalValue digits)

/-- Before a number a sign for none or for less than zero cannot stand. -/
theorem readIndex_toDigits (n : Nat) : readIndex (Nat.toDigits 10 n) = some (n : Int) := by
  have hbasic : ∀ c ∈ Nat.toDigits 10 n, Text.isBasicDigit c = true :=
    fun c => Text.isBasicDigit_of_mem_toDigits
  have hvalue := Text.decimalValue_toDigits n
  generalize Nat.toDigits 10 n = digits at hbasic hvalue ⊢
  unfold readIndex
  split
  · cases hbasic '?' List.mem_cons_self
  · cases hbasic '-' List.mem_cons_self
  · rw [hvalue]

theorem toList_indexText_ofNat (n : Nat) :
    (indexText (some (.ofNat n))).toList = Nat.toDigits 10 n := Nat.toList_repr

theorem toList_indexText_negSucc (n : Nat) :
    (indexText (some (.negSucc n))).toList = '-' :: Nat.toDigits 10 (n + 1) := by
  have hminus : indexText (some (.negSucc n)) = "-" ++ (n + 1).repr := rfl
  simp [hminus, Nat.toList_repr]

theorem readIndex_indexText (index : Option Int) : readIndex (indexText index).toList = index := by
  rcases index with - | n | n
  · rfl
  · rw [toList_indexText_ofNat, readIndex_toDigits]
    rfl
  · rw [toList_indexText_negSucc, readIndex, Text.decimalValue_toDigits]
    rfl

/-- Indexes are written differently. -/
theorem indexText_inj {i j : Option Int} : indexText i = indexText j ↔ i = j := by
  constructor
  · intro h
    rw [← readIndex_indexText i, h, readIndex_indexText]
  · rintro rfl
    rfl

theorem hash_notMem_toDigits (n : Nat) : '#' ∉ Nat.toDigits 10 n := by
  intro h
  cases Text.isBasicDigit_of_mem_toDigits h

/-- The sign between the name of a step and its index is in no index. -/
theorem hash_notMem_indexText (index : Option Int) : '#' ∉ (indexText index).toList := by
  rcases index with - | n | n
  · decide
  · rw [toList_indexText_ofNat]
    exact hash_notMem_toDigits n
  · rw [toList_indexText_negSucc, List.mem_cons, not_or]
    exact ⟨by decide, hash_notMem_toDigits (n + 1)⟩

/-- What stands behind the last sign can be read from a text, and so can what stands before it. -/
theorem append_hash_inj {front front' : List Char} {back back' : List Char} (hback : '#' ∉ back)
    (hback' : '#' ∉ back') (h : front ++ '#' :: back = front' ++ '#' :: back') :
    front = front' ∧ back = back' := by
  -- From its end a text goes up to the sign.
  have htake : ∀ {front back : List Char}, '#' ∉ back →
      (front ++ '#' :: back).reverse.takeWhile (· != '#') = back.reverse := by
    intro front back hback
    rw [List.reverse_append, List.reverse_cons, List.append_assoc, List.takeWhile_append_of_pos]
    · simp
    · intro c hc
      rw [bne_iff_ne]
      rintro rfl
      exact hback (List.mem_reverse.mp hc)
  have hsame : back = back' := List.reverse_injective (by rw [← htake hback, h, htake hback'])
  subst hsame
  exact ⟨List.append_cancel_right h, rfl⟩

/-- Lines that say the same are under the same mark. -/
theorem lineUnder_inj {id id' : Option String} {level text : String} :
    lineUnder id level text = lineUnder id' level text ↔ markOf id = markOf id' := by
  simp [lineUnder, String.append_left_inj, String.append_right_inj]

/-- Lines for the end of a step tell its index, too. -/
theorem lineUnder_ended_inj {id id' : Option String} {i j : Option Int}
    {level step time outputs : String} :
    lineUnder id level (step ++ "#" ++ indexText i ++ " done in " ++ time ++ " " ++ outputs) =
        lineUnder id' level (step ++ "#" ++ indexText j ++ " done in " ++ time ++ " " ++ outputs) ↔
      markOf id = markOf id' ∧ i = j := by
  constructor
  · intro h
    simp only [lineUnder, ← String.append_assoc, String.append_left_inj] at h
    have hletters : ∀ (id : Option String) (i : Option Int),
        ("[" ++ markOf id ++ "] " ++ padded 5 level ++ " " ++ step ++ "#" ++ indexText i).toList =
          ("[" ++ markOf id ++ "] " ++ padded 5 level ++ " " ++ step).toList ++
            '#' :: (indexText i).toList := by
      intro id i
      simp
    obtain ⟨hfront, hindex⟩ := append_hash_inj (hash_notMem_indexText i) (hash_notMem_indexText j)
      (by rw [← hletters, h, hletters])
    refine ⟨?_, indexText_inj.mp (String.ext hindex)⟩
    simpa [String.append_left_inj, String.append_right_inj] using String.ext hfront
  · rintro ⟨hmark, rfl⟩
    exact lineUnder_inj.mpr hmark

/-- **An event is written**: identifications never are, and the starts of steps only
by a verbose console. -/
def Writes (verbose : Bool) : AuditCall → Prop
  | .identified _ => False
  | .stepStarted .. => verbose = true
  | .stepEnded .. | .anomaly .. => True

/-- **What a console remembers can be read from its lines**: the mark, and for the end
of a step its index. -/
theorem linesFor_inj {verbose : Bool} {id id' : Option String}
    {started started' : String → Option Int} {call : AuditCall} :
    linesFor verbose id started call = linesFor verbose id' started' call ↔
      (Writes verbose call → markOf id = markOf id' ∧
        ∀ step outputs seconds metadata, call = .stepEnded step outputs seconds metadata →
          started step = started' step) := by
  cases call with
  | identified _ => simp [linesFor, Writes]
  | stepStarted step index metadata => cases verbose <;> simp [linesFor, Writes, lineUnder_inj]
  | stepEnded step outputs seconds metadata =>
    simp only [linesFor, List.cons.injEq, and_true, lineUnder_ended_inj, Writes, true_implies]
    refine and_congr Iff.rfl ⟨fun hindex => ?_, fun hindex =>
      hindex step outputs seconds metadata rfl⟩
    rintro _ _ _ _ ⟨⟩
    exact hindex
  | anomaly message severity context => simp [linesFor, Writes, lineUnder_inj]

end Console

end Switchyard
