import AzureInit.Provision.Media

/-! Which device the search for the OVF environment takes it from. -/

set_option autoImplicit false

namespace AzureInit.Provision

open Foundation
open Foundation.Program

/-- A device of the mount table, with what comes of mounting and parsing it. -/
abbrev Candidate : Type := Text × Except MediaError OvfEnvironment

def successes (candidates : List Candidate) : List OvfEnvironment :=
  candidates.filterMap (·.2.toOption)

theorem successes_cons (candidate : Candidate) (candidates : List Candidate) :
    successes (candidate :: candidates) = candidate.2.toOption.toList ++ successes candidates := by
  unfold successes
  rw [List.filterMap_cons]
  cases candidate.2.toOption <;> rfl

theorem successes_eq_nil_iff {candidates : List Candidate} :
    successes candidates = [] ↔ ∀ candidate ∈ candidates, candidate.2.isOk = false := by
  unfold successes
  rw [List.filterMap_eq_nil_iff]
  refine forall₂_congr fun candidate _ => ?_
  cases candidate.2 <;> simp [Except.toOption, Except.isOk, Except.toBool]

/-- What the loop makes of the candidates. -/
def found (candidates : List Candidate) : Except AnyhowError OvfEnvironment :=
  match (successes candidates).getLast? with
  | some environment => .ok environment
  | none => .error noEnvironment

/-! ## Runs of the search -/

section Runs

variable {State : Type} {step : (request : SearchRequest) → State → request.Reply → State → Prop}

/-- The candidates are tried in their order. -/
inductive Tried (step : (request : SearchRequest) → State → request.Reply → State → Prop) :
    List Candidate → State → State → Prop where
  | nil {state : State} : Tried step [] state state
  | cons {dev : Text} {outcome : Except MediaError OvfEnvironment}
      {candidates : List Candidate} {before middle after : State} :
      step (.mountParseOvfEnv dev) before outcome middle → Tried step candidates middle after →
      Tried step ((dev, outcome) :: candidates) before after

private theorem searchDevices_cons (dev : Text) (ovfDevices : List Text)
    (environment : Option OvfEnvironment) :
    searchDevices (dev :: ovfDevices) environment =
      .call (.mountParseOvfEnv dev) fun outcome =>
        searchDevices ovfDevices (outcome.toOption.or environment) := by
  show Program.call _ _ = Program.call _ _
  congr 1
  funext outcome
  cases outcome <;> rfl

/-- Every device is tried, and the last one that succeeds counts. -/
theorem runs_searchDevices_iff {ovfDevices : List Text} {environment result : Option OvfEnvironment}
    {before after : State} :
    Runs step (searchDevices ovfDevices environment) before result after ↔
      ∃ candidates : List Candidate, candidates.map (·.1) = ovfDevices ∧
        Tried step candidates before after ∧
        result = (successes candidates).getLast?.or environment := by
  induction ovfDevices generalizing environment before with
  | nil =>
      constructor
      · intro executed
        obtain ⟨rfl, rfl⟩ := runs_pure_iff.mp executed
        exact ⟨[], rfl, .nil, rfl⟩
      · intro tried
        obtain ⟨candidates, names, tried, rfl⟩ := tried
        rw [List.map_eq_nil_iff] at names
        subst names
        cases tried
        exact runs_pure_iff.mpr ⟨rfl, rfl⟩
  | cons dev ovfDevices ih =>
      rw [searchDevices_cons, runs_call_iff]
      have last : ∀ (outcome : Except MediaError OvfEnvironment) (candidates : List Candidate),
          (successes ((dev, outcome) :: candidates)).getLast?.or environment =
            (successes candidates).getLast?.or (outcome.toOption.or environment) := by
        intro outcome candidates
        rw [successes_cons, List.getLast?_append]
        cases outcome <;> cases (successes candidates).getLast? <;> rfl
      constructor
      · intro split
        obtain ⟨outcome, middle, stepped, rest⟩ := split
        obtain ⟨candidates, rfl, tried, rfl⟩ := ih.mp rest
        exact ⟨(dev, outcome) :: candidates, rfl, .cons stepped tried, (last _ _).symm⟩
      · intro split
        obtain ⟨candidates, names, tried, rfl⟩ := split
        cases tried with
        | nil => cases names
        | cons stepped tried =>
            cases names
            exact ⟨_, _, stepped, ih.mpr ⟨_, rfl, tried, last _ _⟩⟩

theorem runs_getEnvironment_iff {result : Except AnyhowError OvfEnvironment}
    {before after : State} :
    Runs step getEnvironment before result after ↔
      (∃ error, step .getMountDevice before (.error error) after ∧
        result = .error (.error error)) ∨
      (∃ (candidates : List Candidate) (middle : State),
        step .getMountDevice before (.ok (candidates.map (·.1))) middle ∧
        Tried step candidates middle after ∧ result = found candidates) := by
  unfold getEnvironment
  rw [runs_bind_iff]
  constructor
  · intro split
    obtain ⟨reply, middle, asked, rest⟩ := split
    rw [runs_ask_iff] at asked
    cases reply with
    | error error =>
        obtain ⟨rfl, rfl⟩ := runs_pure_iff.mp rest
        exact .inl ⟨error, asked, rfl⟩
    | ok ovfDevices =>
        obtain ⟨environment, last, searched, returned⟩ := runs_bind_iff.mp rest
        obtain ⟨candidates, rfl, tried, rfl⟩ := runs_searchDevices_iff.mp searched
        rw [Option.or_none] at returned
        refine .inr ⟨candidates, middle, asked, ?_⟩
        unfold found
        cases lastSuccess : (successes candidates).getLast? with
        | some environment =>
            rw [lastSuccess] at returned
            obtain ⟨rfl, rfl⟩ := runs_pure_iff.mp returned
            exact ⟨tried, rfl⟩
        | none =>
            rw [lastSuccess] at returned
            obtain ⟨rfl, rfl⟩ := runs_pure_iff.mp returned
            exact ⟨tried, rfl⟩
  · intro split
    cases split with
    | inl failed =>
        obtain ⟨error, asked, rfl⟩ := failed
        exact ⟨.error error, after, runs_ask_iff.mpr asked, runs_pure_iff.mpr ⟨rfl, rfl⟩⟩
    | inr searched =>
        obtain ⟨candidates, middle, asked, tried, rfl⟩ := searched
        refine ⟨.ok (candidates.map (·.1)), middle, runs_ask_iff.mpr asked, ?_⟩
        refine runs_bind_iff.mpr ⟨(successes candidates).getLast?, after,
          runs_searchDevices_iff.mpr ⟨candidates, rfl, tried, (Option.or_none).symm⟩, ?_⟩
        unfold found
        cases (successes candidates).getLast? with
        | some environment => exact runs_pure_iff.mpr ⟨rfl, rfl⟩
        | none => exact runs_pure_iff.mpr ⟨rfl, rfl⟩

end Runs

/-! ## The search over given candidates -/

def missingDevice : MediaError := .io { kind := .notFound }

/-- The candidates' outcomes in their order; the devices that were tried are kept. -/
def answering (candidates : List Candidate) :
    (request : SearchRequest) → List Text → request.Reply × List Text
  | .getMountDevice, tried => (.ok (candidates.map (·.1)), tried)
  | .mountParseOvfEnv dev, tried =>
      ((candidates[tried.length]?).elim (.error missingDevice) (·.2), tried ++ [dev])

def search (candidates : List Candidate) : Except AnyhowError OvfEnvironment × List Text :=
  getEnvironment.run (answering candidates) []

private theorem tried_answering (before candidates : List Candidate) :
    Tried (fun request tried reply after =>
        answering (before ++ candidates) request tried = (reply, after))
      candidates (before.map (·.1)) ((before ++ candidates).map (·.1)) := by
  induction candidates generalizing before with
  | nil =>
      rw [List.append_nil]
      exact .nil
  | cons candidate candidates ih =>
      obtain ⟨dev, outcome⟩ := candidate
      have answered : answering (before ++ (dev, outcome) :: candidates) (.mountParseOvfEnv dev)
          (before.map (·.1)) = (outcome, (before ++ [(dev, outcome)]).map (·.1)) := by
        simp [answering]
      refine .cons answered ?_
      have rest := ih (before ++ [(dev, outcome)])
      rw [List.append_assoc, List.singleton_append] at rest
      exact rest

/-- Every device is tried, and the last success is returned. -/
theorem search_eq (candidates : List Candidate) :
    search candidates = (found candidates, candidates.map (·.1)) := by
  apply runs_handler_iff.mp
  rw [runs_getEnvironment_iff]
  exact .inr ⟨candidates, [], rfl, tried_answering [] candidates, rfl⟩

/-- The media are searched as the candidates are that they turn out to be. -/
theorem runs_getEnvironmentOnMedia {State : Type}
    {step : (request : MediaRequest) → State → request.Reply → State → Prop}
    {fromStr : Text → Except Text OvfEnvironment}
    {result : Except AnyhowError OvfEnvironment} {before after : State}
    (executed : Runs step (getEnvironmentOnMedia fromStr) before result after) :
    (∃ error, Runs step (getMountDevice none).run before (.error error) after ∧
      result = .error (.error error)) ∨
    (∃ (candidates : List Candidate) (middle : State),
      Runs step (getMountDevice none).run before (.ok (candidates.map (·.1))) middle ∧
      Tried (fun request before reply after =>
        Runs step (request.perform fromStr) before reply after) candidates middle after ∧
      result = (search candidates).1) := by
  simp only [search_eq]
  exact runs_getEnvironment_iff.mp (runs_interpret_iff.mp executed)

/-! ## The first success -/

/-- The first success is returned and no device is tried behind it; without a success, and
only then, there is an error. -/
structure DecidedByFirst (candidates : List Candidate)
    (outcome : Except AnyhowError OvfEnvironment × List Text) : Prop where
  decides : ∀ (failed : List Candidate) (dev : Text) (environment : OvfEnvironment)
    (behind : List Candidate), candidates = failed ++ (dev, .ok environment) :: behind →
    (∀ candidate ∈ failed, candidate.2.isOk = false) →
    outcome.1 = .ok environment ∧ outcome.2 = failed.map (·.1) ++ [dev]
  fails_iff : (∃ error, outcome.1 = .error error) ↔
    ∀ candidate ∈ candidates, candidate.2.isOk = false

private theorem exists_first {candidates : List Candidate} {candidate : Candidate}
    (member : candidate ∈ candidates) (succeeds : candidate.2.isOk = true) :
    ∃ failed dev environment behind, candidates = failed ++ (dev, .ok environment) :: behind ∧
      ∀ candidate ∈ failed, candidate.2.isOk = false := by
  induction candidates with
  | nil => cases member
  | cons first candidates ih =>
      obtain ⟨dev, outcome⟩ := first
      cases outcome with
      | ok environment => exact ⟨[], dev, environment, candidates, rfl, by simp⟩
      | error error =>
          cases member with
          | head => cases succeeds
          | tail _ later =>
              obtain ⟨failed, next, environment, behind, rfl, allFail⟩ := ih later
              exact ⟨(dev, .error error) :: failed, next, environment, behind, rfl,
                List.forall_mem_cons.mpr ⟨rfl, allFail⟩⟩

theorem found_fails_iff {candidates : List Candidate} :
    (∃ error, found candidates = .error error) ↔
      ∀ candidate ∈ candidates, candidate.2.isOk = false := by
  rw [← successes_eq_nil_iff, ← List.getLast?_eq_none_iff]
  unfold found
  cases (successes candidates).getLast? <;> simp

/-- The first success decides if and only if no device but the last one succeeds. -/
theorem first_environment_decides_iff (candidates : List Candidate) :
    DecidedByFirst candidates (search candidates) ↔
      ∀ candidate ∈ candidates.dropLast, candidate.2.isOk = false := by
  rw [search_eq]
  constructor
  · intro decided candidate member
    by_contra succeeds
    obtain ⟨failed, dev, environment, behind, rfl, allFail⟩ :=
      exists_first (List.mem_of_mem_dropLast member) (Bool.not_eq_false _ ▸ succeeds)
    obtain ⟨-, tried⟩ := decided.decides failed dev environment behind rfl allFail
    have lengths := congrArg List.length tried
    simp only [List.length_map, List.length_append, List.length_cons, List.length_nil] at lengths
    have nothing : behind = [] := List.length_eq_zero_iff.mp (by omega)
    rw [nothing, List.dropLast_concat] at member
    exact succeeds (allFail candidate member)
  · intro othersFail
    refine ⟨?_, found_fails_iff⟩
    intro failed dev environment behind split allFail
    have nothing : behind = [] := by
      cases behind with
      | nil => rfl
      | cons next behind =>
          have member : (dev, Except.ok environment) ∈ candidates.dropLast := by
            rw [split, List.dropLast_append_of_ne_nil (by simp)]
            simp
          cases othersFail _ member
    rw [nothing] at split
    subst split
    have only : successes (failed ++ [(dev, .ok environment)]) = [environment] := by
      have none := successes_eq_nil_iff.mpr allFail
      unfold successes at none ⊢
      rw [List.filterMap_append, none]
      rfl
    simp [found, only]

def environmentOf (username : Text) : OvfEnvironment :=
  { provisioningSection :=
      { version := "1.0".toList
        linuxProvConfSet := { username, password := [], hostname := "vm".toList } }
    platformSettingsSection :=
      { version := "1.0".toList
        platformSettings :=
          { preprovisionedVm := false, preprovisionedVmType := "None".toList } } }

/-- Behind a device with an environment stands another one, whose environment is returned. -/
theorem second_environment_decides :
    ¬ ∀ candidates : List Candidate, DecidedByFirst candidates (search candidates) := by
  intro decided
  have first := (decided [("/dev/sr0".toList, .ok (environmentOf "first".toList)),
    ("/dev/sr1".toList, .ok (environmentOf "second".toList))]).decides [] _ _ _ rfl (by simp)
  rw [search_eq] at first
  simp [found, successes, Except.toOption, environmentOf] at first

end AzureInit.Provision
