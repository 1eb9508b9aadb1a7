import Conform.Proofs.Newest
import Conform.Schema.Compile

/-!
# The last visit decides

One run can visit a place many times, since several parts of a schema may describe it. Each visit
settles the place with an outcome of its own, and nothing is kept of the visits before: the state
that stays is that of the last one.
-/

namespace Conform

namespace Overlap

/-- **The last visit decides.** When a run that does not keep to dirty places returns, and no newer
run has started, the status of a place it visited is an error exactly if its last visit there gave
an invalid outcome. So the status is an error exactly if any of its visits gave an invalid outcome,
if and only if the last one did or none did. -/
theorem status_of_last_visit {rule : Rule} {data : Tree} {config : ModelConfig} {hist : List Event}
    {s t : Overlap} {run : Run} {valid : Bool} (before : Trace (fresh rule data config) hist s)
    (returns : Step s (.returned run valid) t) (full : run.options.onlyDirtyRefs = false)
    (newest : t.model.runs = run.ordinal) (path : String)
    (visited : run.visited.contains path = true) :
    ∃ o st, (settlings hist run.ordinal path).getLast? = some (o, st) ∧
      t.model.state? path = some st ∧ (st.status = .error ↔ o.isInvalid = true) ∧
      ((st.status = .error ↔ ∃ p ∈ settlings hist run.ordinal path, p.1.isInvalid = true) ↔
        o.isInvalid = true ∨ ∀ p ∈ settlings hist run.ordinal path, p.1.isInvalid = false) := by
  have hstands : Stands hist run t := .of_returned before returns full (Nat.le_of_eq newest)
  obtain ⟨st, hst, -, hlast⟩ := hstands.kept path visited
  obtain ⟨⟨o, st'⟩, hp, he⟩ := Option.map_eq_some_iff.1 hlast
  obtain rfl : st = st' := he.symm
  have hmem : (o, st) ∈ settlings hist run.ordinal path := List.mem_of_getLast? hp
  have herr : st.status = .error ↔ o.isInvalid = true := by
    rw [before.settlings_status hmem]
    cases o.isInvalid <;> simp
  refine ⟨o, st, hp, hst, herr, ?_⟩
  rw [herr]
  constructor
  · intro h
    cases ho : o.isInvalid with
    | true => exact .inl rfl
    | false =>
      refine .inr fun p hp => ?_
      cases hi : p.1.isInvalid with
      | false => rfl
      | true =>
        rw [h.2 ⟨p, hp, hi⟩] at ho
        cases ho
  · rintro (ho | hall)
    · exact ⟨fun _ => ⟨(o, st), hmem, ho⟩, fun _ => ho⟩
    · refine ⟨fun ho => ?_, fun ⟨p, hp, hi⟩ => ?_⟩
      · rw [hall _ hmem] at ho
        cases ho
      · rw [hall p hp] at hi
        cases hi

/-- A schema that describes `/a` twice, the first time allowing nothing there. -/
def twiceSchema : Value :=
  .object [("allOf", .array
    [.object [("properties", .object [("a", .bool false)])],
      .object [("properties", .object [("a", .bool true)])]])]

/-- The rule of `twiceSchema`. -/
def twiceRule : Rule :=
  .node "#" [.leaf (.annotations none [] {}), .allOf
    [.node "#/allOf/0" [.leaf (.annotations none [] {}), .properties
      [.mk "a" false (.node "#/allOf/0/properties/a" [.leaf .never] {} {})]] {} {},
    .node "#/allOf/1" [.leaf (.annotations none [] {}), .properties
      [.mk "a" false (.node "#/allOf/1/properties/a" [.leaf (.annotations none [] {})] {} {})]]
      {} {}]] {} {}

theorem compile_twiceSchema : compile Registry.standard twiceSchema = .ok twiceRule := rfl

/-- The only run that was ever started visits `/a` twice, at first in vain, and leaves a success. -/
theorem twice_run :
    ∃ (hist : List Event) (s t : Overlap) (run : Run) (valid : Bool),
      Trace (fresh twiceRule (some (.object [])) {}) hist s ∧ Step s (.returned run valid) t ∧
      run.fromRoot = true ∧ run.options.onlyDirtyRefs = false ∧ run.ordinal = 1 ∧
      t.model.runs = 1 ∧ run.visited.contains "/a" = true ∧
      (settlings hist 1 "/a").map (·.1.isInvalid) = [true, false] ∧
      (t.model.state? "/a").map State.status = some .success := by
  obtain ⟨before, returns⟩ :=
    Trace.solo twiceRule (some (.object [])) {} .validate [] {} 20 rfl (by decide +kernel)
  exact ⟨_, _, _, _, _, before, returns, by decide +kernel, by decide +kernel, by decide +kernel,
    by decide +kernel, by decide +kernel, by decide +kernel, by decide +kernel⟩

/-- The last of the two visits is the one whose outcome the status tells. -/
theorem status_of_last_visit_twice :
    ∃ (hist : List Event) (t : Overlap) (o : Outcome) (st : State),
      (settlings hist 1 "/a").map (·.1.isInvalid) = [true, false] ∧
      (settlings hist 1 "/a").getLast? = some (o, st) ∧ t.model.state? "/a" = some st ∧
      (st.status = .error ↔ o.isInvalid = true) := by
  obtain ⟨hist, s, t, run, valid, before, returns, -, full, hn, newest, visited, hvisits, -⟩ :=
    twice_run
  have h := status_of_last_visit before returns full (newest.trans hn.symm) "/a" visited
  rw [hn] at h
  obtain ⟨o, st, hp, hst, herr, -⟩ := h
  exact ⟨hist, t, o, st, hvisits, hp, hst, herr⟩

/-- The failure of a visit is forgotten: it is not so that a status is an error as soon as one visit
gave an invalid outcome. -/
theorem failure_forgotten :
    ¬ ∀ (schema : Value) (rule : Rule) (data : Tree) (config : ModelConfig) (hist : List Event)
      (s t : Overlap) (run : Run) (valid : Bool) (path : String),
      compile Registry.standard schema = .ok rule → Trace (fresh rule data config) hist s →
      Step s (.returned run valid) t → run.fromRoot = true → run.options.onlyDirtyRefs = false →
      run.ordinal = 1 → t.model.runs = 1 → run.visited.contains path = true →
      ((t.model.state? path).map State.status = some .error ↔
        ∃ p ∈ settlings hist run.ordinal path, p.1.isInvalid = true) := by
  intro h
  obtain ⟨hist, s, t, run, valid, before, returns, root, full, hn, newest, visited, hvisits, hst⟩ :=
    twice_run
  have hiff := h twiceSchema twiceRule _ _ hist s t run valid "/a" compile_twiceSchema before
    returns root full hn newest visited
  have hinvalid : true ∈ (settlings hist 1 "/a").map (·.1.isInvalid) := by
    rw [hvisits]
    exact List.mem_cons_self
  obtain ⟨p, hp, hi⟩ := List.mem_map.1 hinvalid
  rw [hst, hn] at hiff
  cases hiff.2 ⟨p, hp, hi⟩

end Overlap

end Conform
