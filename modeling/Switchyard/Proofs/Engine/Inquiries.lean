import Switchyard.Proofs.Engine.CallingOff
import Switchyard.Proofs.Engine.RunIsFold

/-!
# What a run asks for without looking

Three times a run takes for granted what it does not look at: that the unit of a step has been
looked up, that the output of a step is the first one of its name, and that the designated output is
there. If one of these were not so, an error would come up that is nobody's but the engine's own.
Pipelines are checked once, when their table is built; that is why none of these errors comes up in
any run, whichever names are reserved.

Main statements: whatever escapes a run of any pipeline was raised by a unit, or else the run asked
for something that was not there (`raised_or_lacking`), and a run of a built table finds all it asks
for (`inquiries_succeed_of_build`).
-/

namespace Switchyard.Engine

/-! ## §1 Inquiries -/

/-- **What a run asks for** without looking whether it can have it. -/
inductive Inquiry
  /-- The unit that was looked up for a step. -/
  | unitOf (step : Step)
  /-- A place among the outputs so far for the output of a step. -/
  | placeFor (step : Step) (output : Value) (outputs : Outputs)
  /-- The designated one of the outputs. -/
  | designated (name : String) (outputs : Outputs)

/-- What is asked for is there. -/
def Inquiry.Succeeds (table : PipelineTable) : Inquiry → Prop
  | .unitOf step => ∃ unit, table.unitNamed step.uses = .ok unit
  | .placeFor step output outputs => ∃ more, outputs.record step.name output = .ok more
  | .designated name outputs => ∃ value, outputs.get name = .ok value

/-- **A run asks** for something when it has been resumed in the given states: for the unit
of a step that it calls, for a place for what that unit answers, and after its last step for
the designated output. -/
inductive Asks (engine : Engine) (pipeline : Pipeline) (invocation : Invocation)
    (off : Bool) (w : World) : List World → Inquiry → Prop
  | call {ts : List World} {past : List PastCall} {step : Step} {config : Value} :
      engine.Calls pipeline invocation off w ts past step config →
      Asks engine pipeline invocation off w ts (.unitOf step)
  | record {ts before : List World} {past : List PastCall} {step : Step} {rest : List Step}
      {scope : Scope} {u v : World} {config output : Value} {σ : Store} :
      engine.Reaches pipeline invocation off w ts past (step :: rest) scope u →
      u.surroundings.isGiven invocation.signal = false →
      Binding.resolveRecord scope.context step.bindings u.store = .ok (config, σ) →
      (World.act (engine.work step config (.invocation scope invocation.signal))
        ((engine.announce invocation.number step past.length u).withStore σ)).Ends off before v
          (.ok output) →
      Asks engine pipeline invocation off w (ts ++ before) (.placeFor step output scope.outputs)
  | answer {ts : List World} {past : List PastCall} {scope : Scope} {u : World} {name : String} :
      engine.Reaches pipeline invocation off w ts past [] scope u →
      pipeline.output = some name →
      Asks engine pipeline invocation off w ts (.designated name scope.outputs)

/-- **A run lacks something** that it asks for. -/
def Lacks (engine : Engine) (pipeline : Pipeline) (invocation : Invocation) (off : Bool)
    (w : World) : Prop :=
  ∃ ts inquiry, engine.Asks pipeline invocation off w ts inquiry ∧ ¬ inquiry.Succeeds engine.table

variable {engine : Engine} {pipeline : Pipeline} {invocation : Invocation} {off : Bool}
  {w u v : World} {ts us : List World} {past : List PastCall} {step : Step} {rest : List Step}
  {scope : Scope} {e : Raised}

/-! ## §2 Runs of any pipeline -/

/-- An output that escapes its step found its place taken. -/
theorem record_error_of_escaped {number : Nat} {output : Value}
    (h : (engine.endWithOutput number step scope output v).Ends off ts u (.escaped e)) :
    ¬ ∃ more, scope.outputs.record step.name output = .ok more := by
  rintro ⟨more, hrecord⟩
  have hrecorded : ∃ scope' σ, scope.record step.name output v.store = .ok (scope', σ) := by
    simp only [Scope.record, hrecord]
    exact ⟨_, _, rfl⟩
  obtain ⟨scope', σ, hrecorded⟩ := hrecorded
  rw [endWithOutput, hrecorded] at h
  cases (Activity.ends_done_iff.mp h).2.2

/-- A run that comes to no value after its steps lacks the designated output. -/
theorem Reaches.lacks_of_answerOf (h : engine.Reaches pipeline invocation off w ts past [] scope u)
    (hanswer : answerOf pipeline scope = .error e) : engine.Lacks pipeline invocation off w := by
  unfold answerOf at hanswer
  split at hanswer
  · rename_i name hname
    refine ⟨ts, .designated name scope.outputs, .answer h hname, ?_⟩
    rintro ⟨value, hvalue⟩
    cases hanswer.symm.trans hvalue
  · split at hanswer
    · cases hanswer
    · cases hanswer

/-- What escapes a step of a run was raised by its unit, or else the output of the unit
found its place taken. -/
theorem Reaches.raised_or_lacking_of_escaped
    (h : engine.Reaches pipeline invocation off w ts past (step :: rest) scope u)
    (hcalm : u.surroundings.isGiven invocation.signal = false)
    (hstep : (engine.runStep invocation step past.length scope u).Ends off us v (.escaped e)) :
    (∃ e', engine.Raises invocation off past.length (step :: rest) scope u us past.length step e' ∧
        failureAt step past.length e' = .error e) ∨
      engine.Lacks pipeline invocation off w := by
  rcases runStep_ends_iff.mp hstep
      with ⟨problem, -, hend⟩ | ⟨config, σ, v', answer, hresolve, hact, hend⟩
  · -- Whatever the bindings fail with can be told.
    obtain ⟨failure, hfailure, -⟩ :=
      failureAt_of_plain (Raised.plain_of_evalProblem problem) step past.length
    cases hfailure.symm.trans (endWithError_escapes_iff.mp hend).2.1
  · cases answer with
    | error e' => exact .inl ⟨e', .here hcalm hresolve hact, (endWithError_escapes_iff.mp hend).2.1⟩
    | ok output =>
      exact .inr ⟨ts ++ us, .placeFor step output scope.outputs, .record h hcalm hresolve hact,
        record_error_of_escaped hend⟩

/-- What escapes the steps that are left of a run was raised by the unit of one of them, or else the
run lacks something. -/
theorem Reaches.raised_or_lacking
    (h : engine.Reaches pipeline invocation off w ts past rest scope u) (hend :
      (engine.runSteps invocation pipeline past.length rest scope u).Ends off us v (.error e)) :
    (∃ place step e', engine.Raises invocation off past.length rest scope u us place step e' ∧
        failureAt step place e' = .error e) ∨
      engine.Lacks pipeline invocation off w := by
  -- The induction is on the steps that are left; the run has come to the first of them.
  induction rest generalizing ts us past scope u with
  | nil =>
    obtain ⟨-, -, hended⟩ := Activity.ends_done_iff.mp hend
    cases hanswer : answerOf pipeline scope with
    | error e' => exact .inr (h.lacks_of_answerOf hanswer)
    | ok value =>
      rw [hanswer] at hended
      cases hended
  | cons step rest ih =>
    rw [runSteps] at hend
    split_ifs at hend with hgiven
    · -- Called off before the step: that is told, nothing escapes.
      obtain ⟨outcome, houtcome⟩ := calledOff_ok step past.length
      rw [houtcome] at hend
      cases (Activity.ends_done_iff.mp hend).2.2
    · have hcalm : u.surroundings.isGiven invocation.signal = false := by simpa using hgiven
      obtain ⟨before, after, v', ended, rfl, hstep, hrest⟩ := Activity.ends_bind_iff.mp hend
      cases ended with
      | recorded scope' =>
        obtain ⟨call, hnext⟩ := h.next_of_recorded (Invocation.not_isOff_iff.mpr hcalm) hstep
        have hlength : (past ++ [call]).length = past.length + 1 := List.length_append
        rcases ih hnext (hlength ▸ hrest) with ⟨place, step', e', hraises, herror⟩ | hlacks
        · exact .inl ⟨place, step', e', .later hcalm hstep (hlength ▸ hraises), herror⟩
        · exact .inr hlacks
      | failed failure => cases (Activity.ends_done_iff.mp hrest).2.2
      | escaped e'' =>
        obtain ⟨rfl, -, hended⟩ := Activity.ends_done_iff.mp hrest
        obtain rfl := Except.error.inj hended
        rw [List.append_nil]
        rcases h.raised_or_lacking_of_escaped hcalm hstep with ⟨e', hraises, herror⟩ | hlacks
        · exact .inl ⟨past.length, step, e', hraises, herror⟩
        · exact .inr hlacks

/-- **What escapes a run**, whether its pipeline has been checked or not: what becomes of an error
that a unit raised, or else the run lacks something that it asks for. -/
theorem raised_or_lacking (h : (engine.run pipeline invocation w).Ends off ts v (.error e)) :
    (∃ place step e', engine.RunRaises pipeline invocation off w ts place step e' ∧
        failureAt step place e' = .error e) ∨
      engine.Lacks pipeline invocation off w :=
  Reaches.raised_or_lacking (.start rfl) h

/-! ## §3 Runs of built tables -/

/-- **A run of a pipeline in order** finds all it asks for, if the units of its
steps were looked up. -/
theorem Asks.succeeds {reserved : List String} {known : String → Bool} {inquiry : Inquiry}
    (horder : pipeline.InOrder reserved known)
    (hcaptured : ∀ step ∈ pipeline.steps, ∃ unit, engine.table.units.lookup step.uses = some unit)
    (h : engine.Asks pipeline invocation off w ts inquiry) : inquiry.Succeeds engine.table := by
  cases h with
  | @call _ past step config hcalls =>
    obtain ⟨rest, scope, u, σ, hreached, -⟩ := hcalls
    obtain ⟨unit, hlookup⟩ :=
      hcaptured step (hreached.steps_eq ▸ List.mem_append_right _ (List.mem_cons_self ..))
    exact ⟨unit, by rw [PipelineTable.unitNamed, hlookup]⟩
  | @record _ _ past step rest scope u v config output σ hreached _ _ _ =>
    -- The outputs so far are those of the steps before, and all steps have different names.
    have hnew : step.name ∉ scope.outputs.names := by
      rw [hreached.outputs_eq, PastCall.names_outputs]
      exact hreached.name_notMem_past horder.distinct (List.mem_cons_self ..)
    exact ⟨_, Outputs.record_of_new hnew output⟩
  | @answer _ past scope u name hreached hname =>
    -- No step is left, so each has its output.
    obtain ⟨value, -, hfind⟩ := Outputs.exists_find? (hreached.names_eq ▸ horder.output name hname)
    exact ⟨value, by rw [Outputs.get, hfind]⟩

/-- **A run of a built table finds all it asks for**, whichever names are reserved: the unit
of a step that is called was looked up, the output of a step is the first one of its name,
and the designated output is there. So whatever escapes the run is what becomes of an error
that a unit raised. -/
theorem inquiries_succeed_of_build {catalog catalog' : Catalog} {pipelines : List Pipeline}
    {reserved : List String} {table : PipelineTable} {route : Route} (hooks : Hooks)
    (hbuild : PipelineTable.build catalog pipelines reserved = (.ok table, catalog'))
    (hroute : table.find? route = some pipeline) :
    (∀ ts inquiry, (Engine.mk table hooks).Asks pipeline invocation off w ts inquiry →
      inquiry.Succeeds table) ∧
    ∀ ts v e, ((Engine.mk table hooks).run pipeline invocation w).Ends off ts v (.error e) →
      ∃ place step e', (Engine.mk table hooks).RunRaises pipeline invocation off w ts
        place step e' ∧
        failureAt step place e' = .error e := by
  have hsound := PipelineTable.sound_of_build hbuild
  obtain ⟨known, horder⟩ := hsound.inOrder hroute
  have hsucceeds : ∀ ts inquiry, (Engine.mk table hooks).Asks pipeline invocation off w ts inquiry →
      inquiry.Succeeds table :=
    fun ts inquiry hasks => hasks.succeeds horder (hsound.captured hroute)
  refine ⟨hsucceeds, fun ts v e hend => ?_⟩
  rcases raised_or_lacking hend with hraised | ⟨asked, inquiry, hasks, hfails⟩
  · exact hraised
  · exact absurd (hsucceeds asked inquiry hasks) hfails

/-! ## §4 A run -/

/-- A pipeline that has a step of the name under which expressions see the input, and
answers with its output. -/
def shadowingPipeline : Pipeline where
  route := ⟨"echo", "shadow"⟩
  steps :=
    [⟨"input", "echo", [("value", .literal (.int 1))], ""⟩,
      ⟨"last", "echo", [("value", .expression ⟨"input", .path [.name "input"]⟩)], ""⟩]
  output := some "input"

/-- The table that serves the shadowing pipeline. -/
def shadowingTable : PipelineTable :=
  ⟨[(⟨"echo", "shadow"⟩, shadowingPipeline)], [("echo", some (Units.probe "echo" Units.echo))]⟩

/-- If no name is reserved the shadowing pipeline is served, and its run finds a place for both
outputs and the designated one. -/
theorem inquiries_succeed_shadowing :
    PipelineTable.build echoCatalog [shadowingPipeline] [] = (.ok shadowingTable, echoCatalog) ∧
    shadowingTable.find? ⟨"echo", "shadow"⟩ = some shadowingPipeline ∧
    ∃ outputs : Outputs, outputs.names = ["input", "last"] ∧
      (Engine.mk shadowingTable {}).Asks shadowingPipeline { input := .text "x" } false {} []
        (.designated "input" outputs) ∧
      ∃ value, outputs.get "input" = .ok value := by
  have hbuild : PipelineTable.build echoCatalog [shadowingPipeline] [] =
      (.ok shadowingTable, echoCatalog) := rfl
  have hroute : shadowingTable.find? ⟨"echo", "shadow"⟩ = some shadowingPipeline := rfl
  have hreached : (Engine.mk shadowingTable {}).Reaches shadowingPipeline
      { input := .text "x" } false {} ([] ++ [] ++ [])
      ([] ++ [_] ++ [_]) [] _ _ :=
    .next (.next (.start rfl) rfl rfl (.done _ _) rfl) rfl rfl (.done _ _) rfl
  have hasks := Asks.answer hreached rfl
  exact ⟨hbuild, hroute, _, rfl, hasks, (inquiries_succeed_of_build {} hbuild hroute).1 _ _ hasks⟩

end Switchyard.Engine
