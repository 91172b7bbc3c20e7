import Switchyard.Proofs.Engine.Backward
import Switchyard.Proofs.Engine.Stable
import Switchyard.Proofs.Expression.Names

/-!
# Two spellings of one output

An expression can ask for the output of a step in two ways: by the name of the step alone, or in
full, behind the root of the steps. The check of a pipeline lets every name pass that is not empty
and not that of a root. But expressions read a name alone as something else if it is a keyword, a
number, or more than one token, and behind a dot digits as a place. So the two spellings are only
sure to agree for names that the tokens know as such and that are no keyword.

Main statements: `spelledAlike_iff`, and that the spellings do not agree for all names
(`not_forall_spelledAlike`).
-/

namespace Switchyard

/-- The source that asks for the output of a step in full. -/
def longhand (name : String) : String := "steps." ++ name ++ ".output"

/-- **A name is spelled alike in both ways**: if the name alone and the source in full can both be
read, then in every run of a checked pipeline both give the output of the step of that name, once it
has run; also while bindings are resolved and cells are added. -/
def SpelledAlike (name : String) : Prop :=
  ∀ e e' : Expression, Expression.parse name = .ok e → Expression.parse (longhand name) = .ok e' →
    ∀ {known : String → Bool} {pipelines : List Pipeline} {engine : Engine} {pipeline : Pipeline}
      {invocation : Invocation} {off : Bool} {w u : World} {ts : List World} {past : List PastCall}
        {rest : List Step}
      {scope : Scope}, PipelineProblem.find reservedNames known pipelines = [] →
        pipeline ∈ pipelines →
      engine.Reaches pipeline invocation off w ts past rest scope u →
        (∀ call ∈ past, call.SparesViews) →
      ∀ call ∈ past, call.step.name = name → ∀ σ, u.store.Extends σ →
        e.evaluate σ scope.context = .ok call.output ∧ e'.evaluate σ scope.context = .ok call.output

/-! ## §1 Names that are spelled alike -/

namespace Expression

variable {σ : Store} {name : String} {v : Value}

/-- The source in full of a name is read as a path. -/
theorem parse_longhand (hname : IsName name) :
    parse (longhand name) =
      .ok ⟨longhand name, .path [.name Scope.stepsRoot, .name name, .name "output"]⟩ := by
  have hsteps : IsName Scope.stepsRoot := @isName_of_all _ 's' ['t', 'e', 'p', 's'] rfl rfl rfl
  have houtput : IsName "output" := @isName_of_all _ 'o' ['u', 't', 'p', 'u', 't'] rfl rfl rfl
  have hspellable : (Tree.path [.name Scope.stepsRoot, .name name, .name "output"]).Spellable := by
    refine .path hsteps rfl ?_
    intro segment hsegment
    rcases List.mem_pair.mp hsegment with rfl | rfl
    · exact .name hname
    · exact .name houtput
  have hspelling : (Tree.path [.name Scope.stepsRoot, .name name, .name "output"]).spelling =
      longhand name := by
    simp [Tree.spelling, dotted, Segment.key, longhand, Scope.stepsRoot, String.append_assoc]
  have hparse := parse_spelling hspellable
  rwa [hspelling] at hparse

/-- A root is found under its name. -/
theorem valueAt_root {roots : Entries} (h : roots.field? name = some v) :
    valueAt σ [.name name] (.map roots) = .ok v := by
  have hroots : σ.entries? (.map roots) = some roots := rfl
  rw [valueAt, walk_cons_of_ok (follow_of_field (.name name) hroots h)]
  rfl

end Expression

open Expression (IsName keyword?)

variable {name : String}

/-- **Names that are no keywords** are spelled alike. -/
theorem spelledAlike_of_isName (hname : IsName name) (hkeyword : keyword? name = none) :
    SpelledAlike name := by
  intro e e' he he' known pipelines engine pipeline invocation off w u ts past rest scope hchecked
    hpipeline hreached hspares call hcall hcallName σ hgrown
  obtain rfl := Except.ok.inj ((Expression.parse_name hname hkeyword).symm.trans he)
  obtain rfl := Except.ok.inj ((Expression.parse_longhand hname).symm.trans he')
  have horder := (PipelineProblem.find_eq_nil_iff.mp hchecked).1 pipeline hpipeline
  have hsees := hreached.sees horder hspares hgrown
  obtain ⟨-, hroot, hlonghand⟩ := hsees.output _ _ (List.mem_map_of_mem hcall)
  rw [hcallName] at hroot hlonghand
  exact ⟨Expression.valueAt_root hroot, hlonghand⟩

/-! ## §2 What a source can find -/

namespace Expression

open Grammar

variable {σ : Store} {context left right v : Value} {b : List UInt8}

/-- A segment that leads from entries somewhere leads to the entry that it names. -/
theorem field?_of_follow {walked : List Segment} {segment : Segment} {current : Value}
    {entries : Entries} (hentries : σ.entries? current = some entries)
    (h : follow σ walked segment current = .ok v) :
    entries.field? segment.key = some v := by
  cases hfield : entries.field? segment.key with
  | none =>
    rw [follow_of_no_field segment hentries hfield] at h
    cases h
  | some w =>
    rw [follow_of_field segment hentries hfield] at h
    rw [Except.ok.inj h]

/-- No sum is bytes. -/
theorem add_ne_bytes : add σ left right ≠ .ok (.atom (.bytes b)) := by
  intro h
  unfold add at h
  dsimp only at h
  split_ifs at h
  · split at h <;> cases h
  · split at h
    · cases h
    · cases h
    · split at h <;> cases h
    · split at h <;> cases h
    · cases h

/-- Only a path can have bytes for its value. -/
theorem exists_path_of_bytes {tree : Tree} (hparsed : tree.Parsed)
    (h : tree.evaluate σ context = .ok (.atom (.bytes b))) :
    ∃ root segments, tree = .path (.name root :: segments) ∧ IsName root ∧ keyword? root = none ∧
      ∀ segment ∈ segments, segment.Spellable := by
  cases hparsed with
  | literal l => cases l <;> cases h
  | @path root segments hroot hkeyword hsegments =>
    exact ⟨root, segments, rfl, hroot, hkeyword, hsegments⟩
  | sum hleft hright =>
    -- Both operands have values, and their sum would have to be bytes.
    obtain ⟨l, -, h⟩ := bind_ok_iff.mp h
    obtain ⟨r, -, h⟩ := bind_ok_iff.mp h
    exact absurd h add_ne_bytes

end Expression

open Expression (Segment Tree RefersTo)

namespace StepRecord

variable {invocation : Invocation} {steps : Nat} {σ : Store} {r : StepRecord}

/-- When one step has run and the input is nothing, only paths that name the step find bytes. -/
theorem refersTo_of_bytes {segments : List Segment} {b : List UInt8}
    (hinput : invocation.input = .null) (hshown : Shown steps [r] σ)
    (h : Expression.valueAt σ segments (scope invocation steps [r]).context =
      .ok (.atom (.bytes b))) :
    RefersTo r.name segments := by
  cases segments with
  | nil => cases h
  | cons first more =>
    obtain ⟨next, hnext, hmore⟩ := bind_ok_iff.mp h
    have hfield := Expression.field?_of_follow entries?_context hnext
    rw [roots, Entries.field?_ofFields_cons] at hfield
    split_ifs at hfield with hinputRoot
    · -- The input is null, and nothing is found in it.
      rw [hinput] at hfield
      obtain rfl := Option.some.inj hfield
      cases more with
      | nil => cases hmore
      | cons second more => cases hmore
    · rw [Entries.field?_ofFields_cons] at hfield
      split_ifs at hfield with hstepsRoot
      · -- From the view of the steps only the name of the step leads on.
        obtain rfl := Option.some.inj hfield
        cases more with
        | nil => cases hmore
        | cons second more =>
          obtain ⟨entry, hentry, -⟩ := bind_ok_iff.mp hmore
          have hstep := Expression.field?_of_follow hshown.entries?_steps hentry
          rw [shownSteps, List.map_singleton, Entries.field?_ofFields_cons] at hstep
          split_ifs at hstep with hname
          · exact .longhand hstepsRoot.symm hname.symm
          · cases hstep
      · rw [outputs, List.map_singleton, Entries.field?_ofFields_cons] at hfield
        split_ifs at hfield with hname
        · exact .shorthand hname.symm
        · cases hfield

end StepRecord

/-! ## §3 Names that are not -/

namespace Engine

/-- A pipeline with one step, which gives bytes. -/
def givingPipeline (name : String) : Pipeline where
  route := ⟨"svc", "run"⟩
  steps := [⟨name, "expr", [("value", .literal (.atom (.bytes [])))], ""⟩]

theorem find_givingPipeline (hname : name ≠ "") (hreserved : name ∉ reservedNames) :
    PipelineProblem.find reservedNames (fun _ => true) [givingPipeline name] = [] := by
  refine PipelineProblem.find_eq_nil_iff.mpr ⟨?_, by simp⟩
  intro pipeline hpipeline
  obtain rfl := List.mem_singleton.mp hpipeline
  exact
    { routeNamed := by simp [givingPipeline]
      named := by simpa [givingPipeline] using ⟨hname, hreserved⟩
      distinct := by simp [givingPipeline, Pipeline.stepNames]
      known := by simp
      output := by simp [givingPipeline] }

/-- A run of that pipeline at its end. -/
theorem exists_reaches_givingPipeline (name : String) :
    ∃ call scope u, (Engine.mk (expressionTable (givingPipeline name)) {}).Reaches
      (givingPipeline name) {} false {} []
        [call] [] scope u ∧ call.SparesViews ∧ call.step.name = name ∧
          call.output = .atom (.bytes []) := by
  have hreached : (Engine.mk (expressionTable (givingPipeline name)) {}).Reaches
      (givingPipeline name) {} false {} ([] ++ []) ([] ++ [_]) [] _ _ :=
    .next (.start rfl) rfl rfl (.done _ _) rfl
  exact ⟨_, _, _, hreached, PastCall.sparesViews_of_keepsViews fun _ _ hview => hview, rfl, rfl⟩

end Engine

/-- A source that is read as a path that names the source is read as that one name: a longer path
would be spelled otherwise. -/
theorem Expression.isName_of_refersTo {e : Expression} {root : String} {segments : List Segment}
    (hparse : Expression.parse name = .ok e) (htree : e.root = .path (.name root :: segments))
    (hroot : IsName root) (hkeyword : keyword? root = none)
    (hsegments : ∀ segment ∈ segments, segment.Spellable)
    (hrefers : RefersTo name (.name root :: segments)) : IsName name ∧ keyword? name = none := by
  cases hrefers with
  | shorthand hkey =>
    obtain rfl : root = name := hkey
    exact ⟨hroot, hkeyword⟩
  | @longhand _ second rest _ hsecond =>
    have hread : ∀ {tree : Tree}, Expression.parse name = .ok ⟨name, tree⟩ →
        tree = .path (.name root :: second :: rest) := by
      intro tree hother
      rw [← htree, Except.ok.inj (hparse.symm.trans hother)]
    -- The second segment is spelled as the whole source, and so the source is one token.
    cases hsegments second (List.mem_cons_self ..) with
    | @name s hs =>
      obtain rfl : s = name := hsecond
      cases hliteral : keyword? s with
      | none => exact ⟨hs, rfl⟩
      | some literal => cases hread (Expression.parse_keyword hliteral)
    | index m =>
      have hdigits : (Tree.literal (.int m)).spelling = name := hsecond
      have hinteger := Expression.parse_spelling (.integer m)
      rw [hdigits] at hinteger
      cases hread hinteger

/-- **A name that is spelled alike**, and can be read in both ways, is read as a path
that names the step. -/
theorem exists_path_of_spelledAlike (hne : name ≠ "") (hreserved : name ∉ reservedNames)
    (h : SpelledAlike name) {e e' : Expression} (he : Expression.parse name = .ok e)
    (he' : Expression.parse (longhand name) = .ok e') :
    ∃ root segments, e.root = .path (.name root :: segments) ∧ IsName root ∧ keyword? root = none ∧
      (∀ segment ∈ segments, segment.Spellable) ∧ RefersTo name (.name root :: segments) := by
  -- In a run whose only value that is bytes is the output of the step, the name alone must find it.
  obtain ⟨call, scope, u, hreached, hspares, rfl, houtput⟩ :=
    Engine.exists_reaches_givingPipeline name
  have hchecked := Engine.find_givingPipeline hne hreserved
  have hall : ∀ other ∈ [call], other.SparesViews := List.forall_mem_singleton.mpr hspares
  obtain ⟨hvalue, -⟩ :=
    h e e' he he' hchecked (List.mem_cons_self ..) hreached hall call (List.mem_cons_self ..) rfl
      u.store (.refl _)
  have horder := (PipelineProblem.find_eq_nil_iff.mp hchecked).1 _ (List.mem_cons_self ..)
  obtain ⟨done, rfl, hshown, houtputs⟩ := hreached.exists_records horder hall
  obtain ⟨r, rfl, hr⟩ := List.map_eq_singleton_iff.mp houtputs
  obtain ⟨hname, -⟩ := Prod.mk.inj hr
  rw [houtput] at hvalue
  obtain ⟨root, segments, htree, hroot, hkeyword, hsegments⟩ :=
    Expression.exists_path_of_bytes (Expression.parsed_of_parse he) hvalue
  have hinput : ({} : Invocation).input = .null := rfl
  rw [Expression.evaluate, htree] at hvalue
  have hrefers := StepRecord.refersTo_of_bytes hinput hshown hvalue
  rw [hname] at hrefers
  exact ⟨root, segments, htree, hroot, hkeyword, hsegments, hrefers⟩

/-- **A name that is spelled alike**, and can be read in both ways, is a name to the
tokens and no keyword. -/
theorem isName_of_spelledAlike (hne : name ≠ "") (hreserved : name ∉ reservedNames)
    (h : SpelledAlike name) {e e' : Expression} (he : Expression.parse name = .ok e)
    (he' : Expression.parse (longhand name) = .ok e') :
    IsName name ∧ keyword? name = none := by
  obtain ⟨root, segments, htree, hroot, hkeyword, hsegments, hrefers⟩ :=
    exists_path_of_spelledAlike hne hreserved h he he'
  exact Expression.isName_of_refersTo he htree hroot hkeyword hsegments hrefers

/-- **Which names are spelled alike**: of the names that the check of a pipeline lets pass,
those that are names to the tokens as well and no keywords; and those that cannot be read
both alone and in full. -/
theorem spelledAlike_iff (hne : name ≠ "") (hreserved : name ∉ reservedNames) :
    SpelledAlike name ↔ (IsName name ∧ keyword? name = none) ∨
      ¬ ∃ e e', Expression.parse name = .ok e ∧ Expression.parse (longhand name) = .ok e' := by
  constructor
  · intro h
    by_cases hread : ∃ e e', Expression.parse name = .ok e ∧
      Expression.parse (longhand name) = .ok e'
    · obtain ⟨e, e', he, he'⟩ := hread
      exact .inl (isName_of_spelledAlike hne hreserved h he he')
    · exact .inr hread
  · intro h
    rcases h with ⟨hname, hkeyword⟩ | hunread
    · exact spelledAlike_of_isName hname hkeyword
    · exact fun e e' he he' => absurd ⟨e, e', he, he'⟩ hunread

/-- The name of the first step of the echoing pipeline is spelled alike. -/
theorem spelledAlike_first : "first" ≠ "" ∧ "first" ∉ reservedNames ∧ SpelledAlike "first" := by
  have hne : "first" ≠ "" := by decide
  have hreserved : "first" ∉ reservedNames := by decide
  have hname : IsName "first" := @Expression.isName_of_all _ 'f' ['i', 'r', 's', 't'] rfl rfl rfl
  exact ⟨hne, hreserved, (spelledAlike_iff hne hreserved).mpr (.inl ⟨hname, rfl⟩)⟩

/-- **Not all names are spelled alike**: a step may have the name of a truth value, and alone that
is the truth value. -/
theorem not_forall_spelledAlike :
    ¬ ∀ name : String, name ≠ "" → name ∉ reservedNames → SpelledAlike name := by
  intro h
  have hne : "true" ≠ "" := by decide
  have hreserved : "true" ∉ reservedNames := by decide
  have hname : IsName "true" := @Expression.isName_of_all _ 't' ['r', 'u', 'e'] rfl rfl rfl
  have hkeyword : keyword? "true" = some (.bool true) := rfl
  obtain ⟨-, hnone⟩ := isName_of_spelledAlike hne hreserved (h "true" hne hreserved)
    (Expression.parse_keyword hkeyword) (Expression.parse_longhand hname)
  cases hkeyword.symm.trans hnone

end Switchyard
