import Conform.Proofs.Marks
import Conform.Proofs.Newest
import Conform.Proofs.Stretch

/-!
# The journal and the records

Every committed state is told in the journal, so a reader who keeps the last state told of each path
would expect to know the records. Two changes of a state are not told of:

* a run that fails puts back the state that it found at a place,
* a record that was forgotten is made anew, bare.

`Missed` says that one of the two has happened to a path, and that neither the record nor what was
told of it has changed since. It is exactly then that the record differs from what was told last.
-/

namespace Conform

namespace Model

/-- The state that the last event of a path tells of. -/
def told? (m : Model) (path : String) : Option State :=
  m.journal.findSome? fun
    | .stateChanged p s => if p = path then some s else none
    | _ => none

theorem told?_publish_stateChanged (m : Model) (path q : String) (s : State) :
    (m.publish (.stateChanged path s)).told? q = if path = q then some s else m.told? q := by
  by_cases h : path = q <;> simp [told?, publish, h]

theorem write_told? (m : Model) (r : Route) (v : Option Value) (q : String) :
    (m.write r v).model.told? q = m.told? q := by
  unfold write
  split
  · rfl
  · dsimp only
    split <;> rfl

theorem setValue_told? (m : Model) (r : Route) (v : Option Value) (q : String) :
    (m.setValue r v).1.told? q = m.told? q := by
  have hw := m.write_told? r v q
  unfold setValue
  dsimp only
  split <;> exact hw

theorem reset_told? (m : Model) (r : Route) (q : String) :
    (m.reset r).1.told? q = m.told? q := by
  have hw := m.write_told? r (m.initialValue r) q
  unfold reset
  dsimp only
  split <;> exact hw

end Model

/-- What a step from `m` to `m'` does to the state at a path and to what was told of it last. -/
inductive Heard (m m' : Model) (path : String) : Event → Prop where
  | silent {e : Event} (same : m'.state? path = m.state? path)
      (last : m'.told? path = m.told? path) : Heard m m' path e
  | told {e : Event} {st : State} (after : m'.state? path = some st)
      (last : m'.told? path = some st) (stamp : 0 < st.valLock) : Heard m m' path e
  | made {e : Event} (before : m.state? path = none) (after : m'.state? path = some {})
      (last : m'.told? path = m.told? path) : Heard m m' path e
  | gone {run : Run} {valid : Bool} (covered : run.covers path = true)
      (unvisited : run.visited.contains path = false) (after : m'.state? path = none)
      (last : m'.told? path = m.told? path) : Heard m m' path (.returned run valid)
  | putBack {n : Nat} {t : Ticket} (own : ∃ s, m.state? path = some s ∧ s.valLock = n)
      (commits : t.commits = true) (at_ : t.route.text = path)
      (after : m'.state? path = some t.previous) (last : m'.told? path = m.told? path) :
      Heard m m' path (.worked n (.rolledBack t))

namespace Heard

variable {m m' m'' : Model} {path : String} {e : Event}

theorem of_states (hs : m.SameStates m') (last : m'.told? path = m.told? path) :
    Heard m m' path e := by
  rcases hs.states path with same | ⟨before, after⟩
  · exact .silent same last
  · exact .made before after last

theorem congr (h : Heard m m' path e) (hs : m''.state? path = m'.state? path)
    (ht : m''.told? path = m'.told? path) : Heard m m'' path e := by
  cases h with
  | silent same last => exact .silent (hs.trans same) (ht.trans last)
  | told after last stamp => exact .told (hs.trans after) (ht.trans last) stamp
  | made before after last => exact .made before (hs.trans after) (ht.trans last)
  | gone covered unvisited after last =>
    exact .gone covered unvisited (hs.trans after) (ht.trans last)
  | putBack own commits at_ after last =>
    exact .putBack own commits at_ (hs.trans after) (ht.trans last)

/-- A commit that is not dropped is told of. -/
theorem commit (h : Heard m m' path e) (at_ : String) {s : State} (stamp : 0 < s.valLock) :
    Heard m (m'.commit at_ s) path e := by
  have hstate := m'.commit_state? at_ path s
  by_cases hc : at_ = path ∧ m'.mayCommit at_ s.valLock = true
  · obtain ⟨rfl, hmay⟩ := hc
    rw [if_pos ⟨rfl, hmay⟩] at hstate
    refine .told hstate ?_ stamp
    rw [Model.commit, if_pos hmay, Model.told?_publish_stateChanged, if_pos rfl]
  · rw [if_neg hc] at hstate
    refine h.congr hstate ?_
    unfold Model.commit
    split
    · next hmay =>
      rw [Model.told?_publish_stateChanged, if_neg fun he => hc ⟨he, hmay⟩]
      rfl
    · rfl

end Heard

namespace Progress

variable (p : Progress) (route : Route) (scope : Scope) {e : Event}

theorem enter_heard (hpos : 0 < p.run.ordinal) (q : String) :
    Heard p.model (p.enter route scope).1.model q e := by
  unfold enter
  dsimp only
  split
  · exact .silent rfl rfl
  · dsimp only
    -- the flags are written first, which may make the record
    have hflags := fun f hf => (Model.SameStates.of_records (.refl p.model)).update route.text f hf
    split
    · refine Heard.commit ?_ _ ?_
      · exact .of_states (hflags _ fun _ => rfl) rfl
      · exact hpos
    · exact .of_states (hflags _ fun _ => rfl) rfl

theorem settle_heard (t : Ticket) (o : Outcome) (hpos : 0 < p.run.ordinal) (q : String) :
    Heard p.model (p.settle t o).model q e := by
  unfold settle
  dsimp only
  split
  · exact .silent rfl rfl
  · refine Heard.commit ?_ _ ?_
    · exact .silent rfl rfl
    · exact hpos

theorem rollBack_heard (t : Ticket) (q : String) :
    Heard p.model (p.rollBack t).model q (.worked p.run.ordinal (.rolledBack t)) := by
  have hstate := p.rollBack_state? t q
  have hlast : (p.rollBack t).model.told? q = p.model.told? q := by
    unfold rollBack
    split <;> rfl
  by_cases hc : t.commits = true ∧ t.route.text = q ∧
      ∃ s, p.model.state? q = some s ∧ s.valLock = p.run.ordinal
  · rw [if_pos hc] at hstate
    obtain ⟨commits, at_, own⟩ := hc
    exact .putBack own commits at_ hstate hlast
  · rw [if_neg hc] at hstate
    exact .silent hstate hlast

end Progress

/-- Of a step that touches no record nothing is told either, but for changes of values. -/
theorem Active.told?_of_quiet {a a' : Active} {m m' : Model} (h : a.next? m = some (a', m'))
    (quiet : a.act m = .quiet) (q : String) : m'.told? q = m.told? q := by
  cases moved h with
  | settled settle => cases quiet
  | rolledBack rollBack => cases quiet
  | refused error => exact m.write_told? _ _ q
  | written ok => exact m.write_told? _ _ q
  | entered meet enter =>
    simp only [act, meet] at quiet
    cases quiet
  | _ => rfl

/-- A run that is driven by itself does nothing but work. -/
theorem Active.worked_of_advance {n : Nat} {a : Active} {m : Model} {e : Event}
    (he : e ∈ (a.advance n m).1) : ∃ k act, e = .worked k act := by
  induction n generalizing a m with
  | zero => cases he
  | succ n ih =>
    cases hn : a.next? m with
    | none =>
      simp only [advance, hn] at he
      cases he
    | some s =>
      simp only [advance, hn, List.mem_cons] at he
      rcases he with rfl | he
      · exact ⟨_, _, rfl⟩
      · exact ih he

theorem Active.heard {a a' : Active} {m m' : Model} (h : a.next? m = some (a', m'))
    (hpos : 0 < a.run.ordinal) (q : String) :
    Heard m m' q (.worked a.run.ordinal (a.act m)) := by
  have hef := Active.effect h
  generalize hact : a.act m = act at hef ⊢
  cases hef with
  | quiet _ _ states => exact .silent (states.state? q) (told?_of_quiet h hact q)
  | entered t r d scope enter =>
    have hh := Progress.enter_heard ⟨a.run.discover r d, m⟩ r scope
      (e := .worked a.run.ordinal (.entered t)) (by simpa using hpos) q
    rwa [enter] at hh
  | settled t o settle =>
    have hh := Progress.settle_heard ⟨a.run, m⟩ t o
      (e := .worked a.run.ordinal (.settled t o (Progress.settlement ⟨a.run, m⟩ o))) hpos q
    rwa [settle] at hh
  | rolledBack t rollBack =>
    have hh := Progress.rollBack_heard ⟨a.run, m⟩ t q
    rwa [rollBack] at hh

namespace Overlap

theorem Step.heard {u v : Overlap} {e : Event} (h : Step u e v) (hnum : Numbered u)
    (path : String) : Heard u.model v.model path e := by
  cases h with
  | set m as r v => exact .of_states (m.setValue_states r v) (m.setValue_told? r v path)
  | reset m as r => exact .of_states (m.reset_states r) (m.reset_told? r path)
  | touch m as r => exact .of_states (m.touch_states r) rfl
  | start m as c r options =>
    have hlast : (c.start m r options).2.told? path = m.told? path := by cases c <;> rfl
    rcases c.start_states m r options path with same | ⟨before, after⟩
    · exact .silent same hlast
    · exact .made before after hlast
  | work pre post next =>
    exact Active.heard next (hnum.ordinal_pos _ (List.mem_append_right _ List.mem_cons_self)) path
  | finish m pre post run o =>
    have hlast : (Progress.finish ⟨run, m⟩).1.told? path = m.told? path := rfl
    by_cases hsame : (Progress.finish ⟨run, m⟩).1.state? path = m.state? path
    · exact .silent hsame hlast
    · obtain ⟨st, hst⟩ : ∃ st, m.state? path = some st := by
        refine Option.ne_none_iff_exists'.1 fun hnone => hsame ?_
        rw [Progress.finish_state?, hnone, Option.filter_none]
      rw [hst] at hsame
      obtain ⟨-, covered, after⟩ := Progress.finish_removed ⟨run, m⟩ hst hsame
      refine .gone covered (eq_false_of_ne_true fun hv => ?_) after hlast
      exact hsame ((Progress.finish_state?_eq_some ⟨run, m⟩).2 ⟨hst, .inr (.inl hv)⟩)
  | fail m pre post run e => exact .silent rfl rfl
  | abandon m pre post a => exact .silent rfl rfl

/-- Some step has changed the record of a path to `st` and told nobody, after `told` was told of it,
and neither of the two has changed since. -/
inductive Missed (s₀ : Overlap) (path : String) (told : State) :
    State → List Event → Overlap → Prop where
  /-- A failing run has put back, in place of its own state, another one than was told last. -/
  | putBack {es : List Event} {n : Nat} {t : Ticket} {u v : Overlap} (trace : Trace s₀ es u)
      (step : Step u (.worked n (.rolledBack t)) v)
      (own : ∃ s, u.model.state? path = some s ∧ s.valLock = n) (commits : t.commits = true)
      (at_ : t.route.text = path) (after : v.model.state? path = some t.previous)
      (last : v.model.told? path = some told) (differs : t.previous ≠ told) :
      Missed s₀ path told t.previous (es ++ [.worked n (.rolledBack t)]) v
  /-- The record had been forgotten and has been made anew. -/
  | made {es : List Event} {e : Event} {u v : Overlap} (trace : Trace s₀ es u) (step : Step u e v)
      (before : u.model.state? path = none) (last : u.model.told? path = some told)
      (after : v.model.state? path = some {}) : Missed s₀ path told {} (es ++ [e]) v
  | stays {es : List Event} {e : Event} {u v : Overlap} {st : State}
      (missed : Missed s₀ path told st es u) (step : Step u e v)
      (after : v.model.state? path = some st) (last : v.model.told? path = some told) :
      Missed s₀ path told st (es ++ [e]) v

/-- A failing run has left the place at a path. -/
def GivenUp (es : List Event) (path : String) : Prop :=
  ∃ n t, .worked n (.rolledBack t) ∈ es ∧ t.route.text = path

/-- A run that did not visit a path has returned and forgotten it. -/
def Forgotten (es : List Event) (path : String) : Prop :=
  ∃ run valid, .returned run valid ∈ es ∧ run.covers path = true ∧
    run.visited.contains path = false

section

variable {s₀ s : Overlap} {es : List Event} {path : String} {st told : State}

theorem GivenUp.append (h : GivenUp es path) (fs : List Event) : GivenUp (es ++ fs) path := by
  obtain ⟨n, t, hm, at_⟩ := h
  exact ⟨n, t, List.mem_append_left fs hm, at_⟩

theorem Forgotten.append (h : Forgotten es path) (fs : List Event) :
    Forgotten (es ++ fs) path := by
  obtain ⟨run, valid, hm, h⟩ := h
  exact ⟨run, valid, List.mem_append_left fs hm, h⟩

/-- Whatever was told bears the number of a run. -/
theorem told_stamp (hnum : Numbered s₀) (hnone : ∀ q, s₀.model.told? q = none)
    (htrace : Trace s₀ es s) (hlast : s.model.told? path = some told) : 0 < told.valLock := by
  induction htrace with
  | nil =>
    rw [hnone] at hlast
    cases hlast
  | snoc htrace hstep ih =>
    cases hstep.heard (hnum.trace htrace) path with
    | silent _ last => exact ih (last.symm.trans hlast)
    | told _ last stamp => exact Option.some.inj (last.symm.trans hlast) ▸ stamp
    | made _ _ last => exact ih (last.symm.trans hlast)
    | gone _ _ _ last => exact ih (last.symm.trans hlast)
    | putBack _ _ _ _ last => exact ih (last.symm.trans hlast)

/-- A record is what was told of it last, or the difference has been missed. -/
theorem told_or_missed (hnum : Numbered s₀) (hnone : ∀ q, s₀.model.told? q = none)
    (htrace : Trace s₀ es s) (hst : s.model.state? path = some st)
    (hlast : s.model.told? path = some told) :
    st = told ∨ Missed s₀ path told st es s := by
  induction htrace generalizing st with
  | nil =>
    rw [hnone] at hlast
    cases hlast
  | snoc htrace hstep ih =>
    cases hstep.heard (hnum.trace htrace) path with
    | silent same last =>
      exact (ih (same.symm.trans hst) (last.symm.trans hlast)).imp_right
        fun hmissed => .stays hmissed hstep hst hlast
    | told after last => exact .inl (Option.some.inj ((hst.symm.trans after).trans
        (last.symm.trans hlast)))
    | made before after last =>
      obtain rfl : {} = st := Option.some.inj (after.symm.trans hst)
      exact .inr (.made htrace hstep before (last.symm.trans hlast) after)
    | gone _ _ after =>
      rw [after] at hst
      cases hst
    | @putBack n t own commits at_ after =>
      obtain rfl : t.previous = st := Option.some.inj (after.symm.trans hst)
      by_cases he : t.previous = told
      · exact .inl he
      · exact .inr (.putBack htrace hstep own commits at_ after hlast he)

theorem Missed.differs (hnum : Numbered s₀) (hnone : ∀ q, s₀.model.told? q = none)
    (h : Missed s₀ path told st es s) : st ≠ told := by
  induction h with
  | putBack _ _ _ _ _ _ _ differs => exact differs
  | made htrace _ _ last =>
    rintro rfl
    exact absurd (told_stamp hnum hnone htrace last) (Nat.lt_irrefl 0)
  | stays _ _ _ _ ih => exact ih

/-- A path that was told of and has no record has been forgotten. -/
theorem forgotten_of_told (hnum : Numbered s₀) (hnone : ∀ q, s₀.model.told? q = none)
    (htrace : Trace s₀ es s) (hst : s.model.state? path = none)
    (hlast : s.model.told? path = some told) : Forgotten es path := by
  induction htrace with
  | nil =>
    rw [hnone] at hlast
    cases hlast
  | snoc htrace hstep ih =>
    cases hstep.heard (hnum.trace htrace) path with
    | silent same last => exact (ih (same.symm.trans hst) (last.symm.trans hlast)).append _
    | gone covered unvisited =>
      exact ⟨_, _, List.mem_append_right _ List.mem_cons_self, covered, unvisited⟩
    | told after => simp [after] at hst
    | made _ after => simp [after] at hst
    | putBack _ _ _ after => simp [after] at hst

/-- Nothing is missed but by a failing run that leaves the place, or by a run that forgets it. -/
theorem Missed.cause (hnum : Numbered s₀) (hnone : ∀ q, s₀.model.told? q = none)
    (h : Missed s₀ path told st es s) : GivenUp es path ∨ Forgotten es path := by
  induction h with
  | putBack _ _ _ _ at_ => exact .inl ⟨_, _, List.mem_append_right _ List.mem_cons_self, at_⟩
  | made htrace _ before last =>
    exact .inr ((forgotten_of_told hnum hnone htrace before last).append _)
  | stays _ _ _ _ ih => exact ih.imp (GivenUp.append · _) (Forgotten.append · _)

end

/-- **How far the journal can be trusted.** At any moment, the record of a path is the state that
the last event of the path tells of, unless a change of the record has been missed: a failing run
has put back another state, or the record was forgotten and has been made anew. So where no failing
run has left the place and no run that returned has forgotten it, the journal is right. -/
theorem last_told_iff_not_missed {rule : Rule} {data : Tree} {config : ModelConfig}
    {es : List Event} {s : Overlap} {path : String} {st told : State}
    (trace : Trace (fresh rule data config) es s) (record : s.model.state? path = some st)
    (last : s.model.told? path = some told) :
    (st = told ↔ ¬ Missed (fresh rule data config) path told st es s) ∧
      (¬ GivenUp es path → ¬ Forgotten es path → st = told) := by
  have hnum := Numbered.fresh rule data config
  have hnone : ∀ q, (fresh rule data config).model.told? q = none := fun _ => rfl
  have hor := told_or_missed hnum hnone trace record last
  refine ⟨⟨fun he hmissed => hmissed.differs hnum hnone he, hor.resolve_right⟩, ?_⟩
  intro hgiven hforgotten
  refine hor.resolve_right fun hmissed => ?_
  exact (hmissed.cause hnum hnone).elim hgiven hforgotten

theorem states_ne_of_status {x y : Option State} {a b : Status} (hx : x.map State.status = some a)
    (hy : y.map State.status = some b) (hne : a ≠ b) :
    ∃ st told, x = some st ∧ y = some told ∧ st ≠ told := by
  obtain ⟨st, rfl, rfl⟩ := Option.map_eq_some_iff.1 hx
  obtain ⟨told, rfl, rfl⟩ := Option.map_eq_some_iff.1 hy
  exact ⟨st, told, rfl, rfl, fun he => hne (he ▸ rfl)⟩

/-- A failing run puts back the state of the root. -/
theorem failure_untold :
    ∃ (es : List Event) (s : Overlap), Trace (fresh breakingRule (some (.string "boom")) {}) es s ∧
      (∀ run, .abandoned run ∉ es) ∧ s.underWay = [] ∧
      ∃ st told, s.model.state? "/" = some st ∧ s.model.told? "/" = some told ∧ st ≠ told := by
  refine ⟨_, _, .snoc (.snoc (.snoc (.snoc (.snoc (.snoc (.nil _) (.start _ _ .validate [] {}))
    (.work [] [] rfl)) (.work [] [] rfl)) (.work [] [] rfl)) (.work [] [] rfl))
    (.fail _ [] [] _ _), ?_, rfl, states_ne_of_status (a := .pristine) (b := .validating) ?_ ?_ ?_⟩
  · simp
  · rfl
  · rfl
  · decide

/-- What a run at the root leaves that takes at most `n` steps and returns. -/
def runAlone (m : Model) (n : Nat) : Model :=
  let r := (Call.validate.start m [] {}).1.advance n (Call.validate.start m [] {}).2
  (Progress.finish ⟨r.2.1.run, r.2.2⟩).1

theorem Trace.runAlone (m : Model) (n : Nat)
    (ended : ((Call.validate.start m [] {}).1.advance n
      (Call.validate.start m [] {}).2).2.1.outcome?.isSome = true) :
    ∃ es, (∀ run, .abandoned run ∉ es) ∧ Trace ⟨m, []⟩ es ⟨Overlap.runAlone m n, []⟩ := by
  obtain ⟨o, ho⟩ := Option.isSome_iff_exists.1 ended
  have hstart : Trace ⟨m, []⟩ ([] ++ [_]) _ := .snoc (.nil _) (.start m [] .validate [] {})
  have hsteps := hstart.trans (Trace.advance [] [] n _ _)
  rw [Active.eq_of_outcome? ho] at hsteps
  refine ⟨_, fun run hm => ?_, hsteps.snoc (.finish _ [] [] _ o)⟩
  simp only [List.nil_append, List.mem_append, List.mem_singleton] at hm
  rcases hm with (hm | hm) | hm
  · cases hm
  · obtain ⟨k, act, he⟩ := Active.worked_of_advance hm
    cases he
  · cases hm

/-- A schema that judges one member of an object. -/
def memberSchema : Value := .object [("properties", .object [("a", .object [])])]

/-- The rule of `memberSchema`. -/
def memberRule : Rule :=
  .node "#" [.leaf (.annotations none [] {}),
    .properties [.mk "a" false
      (.node "#/properties/a" [.leaf (.annotations none [] {})] {} {})]] {} {}

theorem compile_memberSchema : compile Registry.standard memberSchema = .ok memberRule := rfl

/-- A run judges the member, a second one forgets it, since the root is no object any more, and then
the member is touched. -/
theorem renewal_untold :
    ∃ (es : List Event) (s : Overlap), Trace (fresh memberRule none {}) es s ∧
      (∀ run, .abandoned run ∉ es) ∧ s.underWay = [] ∧
      ∃ st told, s.model.state? "/a" = some st ∧ s.model.told? "/a" = some told ∧ st ≠ told := by
  obtain ⟨es, kept, first⟩ := Trace.runAlone (.ofRule memberRule none {}) 20 (by decide +kernel)
  obtain ⟨fs, kept', second⟩ :=
    Trace.runAlone ((runAlone (.ofRule memberRule none {}) 20).setValue [] (some (.nat 1))).1 20
      (by decide +kernel)
  refine ⟨_, _, ((first.snoc (.set _ _ [] (some (.nat 1)))).trans second).snoc
    (.touch _ _ [.key "a"]), fun run hm => ?_, rfl,
    states_ne_of_status (a := .pristine) (b := .success) ?_ ?_ ?_⟩
  · simp [kept run, kept' run] at hm
  · decide +kernel
  · decide +kernel
  · decide

theorem last_told_iff_not_missed_failure :
    ∃ (es : List Event) (s : Overlap) (st told : State),
      Trace (fresh breakingRule (some (.string "boom")) {}) es s ∧
      s.model.state? "/" = some st ∧ s.model.told? "/" = some told ∧
      Missed (fresh breakingRule (some (.string "boom")) {}) "/" told st es s := by
  obtain ⟨es, s, trace, -, -, st, told, record, last, differ⟩ := failure_untold
  refine ⟨es, s, st, told, trace, record, last, Classical.byContradiction fun hnot => ?_⟩
  exact differ ((last_told_iff_not_missed trace record last).1.2 hnot)

/-- That the journal is right wherever every run has returned or failed. -/
def JournalRight (registry : Registry) : Prop :=
  ∀ (schema : Value) (rule : Rule) (data : Tree) (config : ModelConfig) (es : List Event)
    (s : Overlap), compile registry schema = .ok rule → Trace (fresh rule data config) es s →
    (∀ run, .abandoned run ∉ es) → s.underWay = [] →
    ∀ path st told, s.model.state? path = some st → s.model.told? path = some told → st = told

/-- The journal can be wrong, and not only where runs fail. -/
theorem journal_can_mislead :
    ¬ JournalRight Extension.registry ∧ ¬ JournalRight Registry.standard := by
  constructor
  · intro h
    obtain ⟨es, s, trace, kept, idle, st, told, record, last, differ⟩ := failure_untold
    exact differ (h breakingSchema _ _ _ es s compile_breakingSchema trace kept idle "/" st told
      record last)
  · intro h
    obtain ⟨es, s, trace, kept, idle, st, told, record, last, differ⟩ := renewal_untold
    exact differ (h memberSchema _ _ _ es s compile_memberSchema trace kept idle "/a" st told
      record last)

end Overlap

end Conform
