import Conform.Proofs.Distinct
import Conform.Proofs.Journal
import Conform.Proofs.Refused

/-!
# The dirty flag

A set that asks for another value than the one there marks its path as dirty, a reset of the path
takes the mark away, and nothing that a run does at a place changes it. But the mark stands in the
record of the path, and a run that returns forgets the records under its scopes that it has not
visited, the mark with the rest.
-/

namespace Conform

namespace Model

variable (m : Model) (r : Route) (v : Option Value)

/-- Whether setting a value writes: it is not the value that is there, and it is not refused. -/
def Takes : Prop := (m.setValue r v).2 = none ∧ sameValue? (m.value r) v = false

/-- Whether setting a value changes the value of the place. -/
def Alters : Prop := (m.setValue r v).1.value r ≠ m.value r

/-- Whether setting a value writes and all the same leaves the value that was there. -/
def Idles : Prop := m.Takes r v ∧ (m.setValue r v).1.value r = m.value r

theorem setValue_tree : (m.setValue r v).1.tree = (m.write r v).model.tree := by
  unfold setValue
  dsimp only
  split <;> rfl

variable {m r v}

/-- A value is changed by writes only. -/
theorem Alters.takes (h : m.Alters r v) : m.Takes r v := by
  rw [Alters, value, value, setValue_tree] at h
  cases hsame : sameValue? (m.value r) v with
  | true => exact absurd (by rw [write_same hsame]) h
  | false =>
    refine ⟨?_, hsame⟩
    cases hr : (Tree.set m.tree r v).refusal with
    | none => simp only [setValue, (write_done hsame hr).1]
    | some e => exact absurd (by rw [write_new_tree hsame, Tree.get?_set_refused hr]) h

/-- A set that writes is a write to the tree that is not refused. -/
theorem Takes.writes (h : m.Takes r v) : (Tree.set m.tree r v).refusal = none ∧
    (m.write r v).model.tree = (Tree.set m.tree r v).result := by
  cases hr : (Tree.set m.tree r v).refusal with
  | none => exact ⟨rfl, (write_done h.2 hr).2.1⟩
  | some e =>
    have hset := h.1
    rw [setValue, write_refused h.2 hr] at hset
    cases hset

/-- A set that writes is told of. -/
theorem Takes.changes (h : m.Takes r v) :
    (m.setValue r v).1.changes = (r.text, v) :: m.changes := by
  have hwrite := write_done h.2 h.writes.1
  rw [setValue, hwrite.1]
  exact hwrite.2.2

theorem takes_iff : m.Takes r v ↔ m.Alters r v ∨ m.Idles r v := by
  constructor
  · intro h
    by_cases hv : (m.setValue r v).1.value r = m.value r
    · exact .inr ⟨h, hv⟩
    · exact .inl hv
  · rintro (h | h)
    · exact h.takes
    · exact h.1

/-- **What idle sets are.** In data in which no key stands twice, a set that writes and leaves the
value that was there is the removal of an item of an array that is null already. -/
theorem Idles.null (h : m.Idles r v) (tree : ∀ w ∈ m.tree, w.Distinct)
    (value : ∀ w ∈ v, w.Distinct) :
    v = none ∧ ∃ q i items, r = q ++ [.index i] ∧ m.value q = some (.array items) ∧
      m.value r = some .null := by
  obtain ⟨takes, stays⟩ := h
  have hwrites := takes.writes
  rw [Model.value, setValue_tree, hwrites.2] at stays
  cases v with
  | some w =>
    rw [Tree.get?_set_self hwrites.1] at stays
    have hother := takes.2
    rw [← stays, sameValue?, (value w rfl).same_self] at hother
    cases hother
  | none =>
    refine ⟨rfl, ?_⟩
    have hsome : (m.value r).isSome := by
      rw [← Option.isNone_eq_false_iff, ← sameValue?_none]
      exact takes.2
    obtain ⟨hnull, hgone⟩ := Tree.get?_set_none tree hsome hwrites.1
    by_cases hslot : m.tree.IsSlot r
    · rw [hnull hslot] at stays
      obtain ⟨q, i, items, hr, hq⟩ := hslot
      exact ⟨q, i, items, hr, hq, stays.symm⟩
    · rw [hgone hslot] at stays
      rw [← stays] at hsome
      cases hsome

end Model

namespace Model

variable (m : Model) (r : Route) (v : Option Value) (q : String)

theorem write_dirty : ((m.write r v).model.entry q).dirty = (m.entry q).dirty := by
  rw [entry, (m.write_records r v).records]
  rfl

/-- A change of a record that keeps its dirty flag. -/
theorem update_dirty {path : String} {f : Entry → Entry} (hf : ∀ e, (f e).dirty = e.dirty) :
    ((m.update path f).entry q).dirty = (m.entry q).dirty := by
  rw [entry_update]
  split
  · exact hf _
  · rfl

/-- A set marks its path if it writes, and no other. -/
theorem setValue_dirty : ((m.setValue r v).1.entry q).dirty = true ↔
    (m.entry q).dirty = true ∨ r.text = q ∧ m.Takes r v := by
  have hw := m.write_dirty r v q
  by_cases hsame : sameValue? (m.value r) v = true
  · have hset : m.setValue r v = (m, none) := by
      rw [setValue, write, if_pos (show sameValue? (m.tree.get? r) v = true from hsame)]
    simp [hset, Takes, hsame]
  · rw [Bool.not_eq_true] at hsame
    cases hr : (Tree.set m.tree r v).refusal with
    | some e =>
      have hset : m.setValue r v = ((m.write r v).model, some e) := by
        rw [setValue, write_refused hsame hr]
      simp [hset, Takes, hw]
    | none =>
      have hset : m.setValue r v =
          ((m.write r v).model.update r.text fun e => { e with dirty := true }, none) := by
        rw [setValue, (write_done hsame hr).1]
      rw [Takes, hset, entry_update]
      by_cases hq : r.text = q <;> simp [hq, hsame, hw]

/-- A reset takes the mark away if it is not refused. -/
theorem reset_dirty : ((m.reset r).1.entry q).dirty = true ↔
    (m.entry q).dirty = true ∧ ¬(r.text = q ∧ (m.reset r).2 = none) := by
  have hw := m.write_dirty r (m.initialValue r) q
  unfold reset
  dsimp only
  split
  · simp [hw]
  · rw [entry_update]
    by_cases hq : r.text = q <;> simp [hq, hw]

theorem touch_dirty : ((m.touch r).entry q).dirty = (m.entry q).dirty :=
  m.update_dirty q fun _ => rfl

theorem rollBack_dirty (path : String) (n : Nat) (previous : State) :
    ((m.rollBack path n previous).entry q).dirty = (m.entry q).dirty := by
  unfold rollBack Records.rollBack
  split
  · split
    · exact m.update_dirty q fun _ => rfl
    · rfl
  · rfl

end Model

theorem Call.start_dirty (c : Call) (m : Model) (r : Route) (options : ValidateOptions)
    (q : String) : ((c.start m r options).2.entry q).dirty = (m.entry q).dirty := by
  cases c with
  | validate => exact m.update_dirty q fun _ => rfl
  | prepare => rfl

/-- **Runs at work leave the flag alone.** No step of a run changes the dirty flag of a path. -/
theorem Active.next?_dirty {a a' : Active} {m m' : Model} (h : a.next? m = some (a', m'))
    (q : String) : (m'.entry q).dirty = (m.entry q).dirty := by
  cases Active.moved h with
  | settled settle => exact settle ▸ Progress.settle_dirty _ _ _ q
  | @rolledBack run _ t _ _ _ _ rollBack =>
    rw [← rollBack, Progress.rollBack]
    split
    · exact m.rollBack_dirty q _ _ _
    · rfl
  | refused => exact m.write_dirty _ _ q
  | written => exact m.write_dirty _ _ q
  | @entered run r d _ _ _ _ scope _ _ _ enter =>
    have hd := Progress.enter_dirty ⟨run.discover r d, m⟩ r scope q
    rwa [enter] at hd
  | _ => rfl

/-- A run that returns leaves the marks that it does not forget: those that it has visited, those
that it does not cover, and those of a newer run. -/
theorem Progress.finish_dirty_iff (p : Progress) (q : String) :
    (p.finish.1.entry q).dirty = true ↔ (p.model.entry q).dirty = true ∧
      ¬(p.run.covers q = true ∧ p.run.visited.contains q = false ∧
        ((p.model.state? q).getD {}).valLock ≤ p.run.ordinal) := by
  have hget : p.finish.1.records.get? q = (p.model.records.get? q).filter fun e =>
      p.run.ordinal < e.state.valLock || p.run.visited.contains q || !p.run.covers q :=
    Records.get?_evict _ _ _ _ q
  rw [Model.entry, Records.get, hget, Model.entry, Records.get, Model.state?, Records.state?]
  cases he : p.model.records.get? q with
  | none => simp
  | some e =>
    rw [Option.filter_some, Option.map_some, Option.getD_some, Option.getD_some]
    split
    · next hkept =>
      simp only [Bool.or_eq_true, decide_eq_true_eq, Bool.not_eq_true'] at hkept
      rw [Option.getD_some, iff_self_and]
      rintro - ⟨hcovers, hvisited, hle⟩
      rcases hkept with (hlt | hv) | hc
      · omega
      · rw [hvisited] at hv
        cases hv
      · rw [hcovers] at hc
        cases hc
    · next hgone =>
      simp only [Bool.or_eq_true, decide_eq_true_eq, Bool.not_eq_true', not_or, Nat.not_lt,
        Bool.not_eq_true, Bool.not_eq_false] at hgone
      simp [hgone.1.1, hgone.1.2, hgone.2]

namespace Overlap

/-- A set at a path of which `P` holds. -/
inductive SetAt (path : String) (P : Model → Route → Option Value → Prop) :
    Overlap → Event → Overlap → Prop where
  | intro (m : Model) (as : List Active) (r : Route) (v : Option Value) (at_ : r.text = path)
      (holds : P m r v) : SetAt path P ⟨m, as⟩ .referenced ⟨(m.setValue r v).1, as⟩

/-- A reset of a path that is not refused. -/
inductive Resets (path : String) : Overlap → Event → Overlap → Prop where
  | intro (m : Model) (as : List Active) (r : Route) (at_ : r.text = path)
      (accepted : (m.reset r).2 = none) : Resets path ⟨m, as⟩ .referenced ⟨(m.reset r).1, as⟩

/-- The return of a run that covers a path, has not visited it and is no older than what is on
record there. -/
def Forgets (path : String) (s : Overlap) (e : Event) (_ : Overlap) : Prop :=
  ∃ run valid, e = .returned run valid ∧ run.covers path = true ∧
    run.visited.contains path = false ∧ ((s.model.state? path).getD {}).valLock ≤ run.ordinal

/-- Something has been done by a step of a trace, and no step since then has undone it. -/
inductive Since (did undid : Overlap → Event → Overlap → Prop) (s₀ : Overlap) :
    List Event → Overlap → Prop where
  | now {es : List Event} {e : Event} {s t : Overlap} (before : Trace s₀ es s) (step : Step s e t)
      (done : did s e t) : Since did undid s₀ (es ++ [e]) t
  | still {es : List Event} {e : Event} {s t : Overlap} (since : Since did undid s₀ es s)
      (step : Step s e t) (not : ¬undid s e t) : Since did undid s₀ (es ++ [e]) t

namespace Since

variable {did did' undid undid' : Overlap → Event → Overlap → Prop} {s₀ s : Overlap}
  {es : List Event}

theorem mono (h : Since did undid s₀ es s) (hdid : ∀ s e t, did s e t → did' s e t)
    (hundid : ∀ s e t, e ∈ es → undid' s e t → undid s e t) : Since did' undid' s₀ es s := by
  induction h with
  | now before step done => exact .now before step (hdid _ _ _ done)
  | still _ step not ih =>
    refine .still (ih fun s e t he => hundid s e t (List.mem_append_left _ he)) step fun hu => ?_
    exact not (hundid _ _ _ (by simp) hu)

/-- Steps that undo nothing. -/
theorem extend {t : Overlap} {fs : List Event} (h : Since did undid s₀ es s) (later : Trace s fs t)
    (not : ∀ e ∈ fs, ∀ s t, ¬undid s e t) : Since did undid s₀ (es ++ fs) t := by
  induction later with
  | nil => simpa using h
  | snoc _ step ih =>
    rw [← List.append_assoc]
    exact (ih fun e he => not e (List.mem_append_left _ he)).still step (not _ (by simp) _ _)

theorem ne_nil (h : Since did undid s₀ es s) : es ≠ [] := by cases h <;> simp

/-- In a trace of one step it is that step. -/
theorem of_single {e : Event} (h : Since did undid s₀ [e] s) : did s₀ e s := by
  have hstart : ∀ {es : List Event} {t : Overlap}, Trace s₀ es t → es = [] → t = s₀ := by
    intro es t htrace hes
    cases htrace with
    | nil => rfl
    | snoc => simp at hes
  generalize hes : [e] = es at h
  cases h with
  | @now es e' _ _ before _ done =>
    obtain ⟨hnil, he⟩ := List.append_inj' (show [] ++ [e] = es ++ [e'] from hes) rfl
    cases he
    rwa [← hstart before hnil.symm]
  | @still es e' _ _ since =>
    obtain ⟨hnil, -⟩ := List.append_inj' (show [] ++ [e] = es ++ [e'] from hes) rfl
    exact absurd hnil.symm since.ne_nil

theorem or (h : Since (fun s e t => did s e t ∨ did' s e t) undid s₀ es s) :
    Since did undid s₀ es s ∨ Since did' undid s₀ es s := by
  induction h with
  | now before step done =>
    rcases done with hd | hd
    · exact .inl (.now before step hd)
    · exact .inr (.now before step hd)
  | still _ step not ih =>
    rcases ih with ih | ih
    · exact .inl (ih.still step not)
    · exact .inr (ih.still step not)

end Since

variable {s t : Overlap} {e : Event} {path : String}

/-- What takes the mark of a path away: a reset, or a run that forgets the record. -/
def Unmarks (path : String) (s : Overlap) (e : Event) (t : Overlap) : Prop :=
  Resets path s e t ∨ Forgets path s e t

theorem SetAt.dirty (h : SetAt path Model.Takes s e t) : (t.model.entry path).dirty = true := by
  cases h with
  | intro m as r v at_ holds => exact (m.setValue_dirty r v path).2 (.inr ⟨at_, holds⟩)

theorem Resets.not_dirty (h : Resets path s e t) : ¬(t.model.entry path).dirty = true := by
  cases h with
  | intro m as r at_ accepted =>
    exact fun hd => ((m.reset_dirty r path).1 hd).2 ⟨at_, accepted⟩

theorem Step.not_dirty_of_forgets (h : Step s e t) (forgets : Forgets path s e t) :
    ¬(t.model.entry path).dirty = true := by
  obtain ⟨run, valid, rfl, covered, unvisited, older⟩ := forgets
  cases h with
  | finish m pre post run o =>
    exact fun hd => ((Progress.finish_dirty_iff _ path).1 hd).2 ⟨covered, unvisited, older⟩

/-- **One step.** A path is dirty after a step if the step marks it, or if it was dirty before and
the step does not take the mark away. -/
theorem Step.dirty_iff (h : Step s e t) (path : String) : (t.model.entry path).dirty = true ↔
    SetAt path Model.Takes s e t ∨
      (s.model.entry path).dirty = true ∧ ¬Unmarks path s e t := by
  have hun : (t.model.entry path).dirty = true → ¬Unmarks path s e t := by
    rintro hd (hr | hf)
    · exact hr.not_dirty hd
    · exact h.not_dirty_of_forgets hf hd
  constructor
  · intro hd
    suffices hor : SetAt path Model.Takes s e t ∨ (s.model.entry path).dirty = true from
      hor.imp_right fun hs => ⟨hs, hun hd⟩
    cases h with
    | set m as r v =>
      rcases (m.setValue_dirty r v path).1 hd with hs | ⟨at_, takes⟩
      · exact .inr hs
      · exact .inl ⟨m, as, r, v, at_, takes⟩
    | reset m as r => exact .inr ((m.reset_dirty r path).1 hd).1
    | touch m as r => exact .inr ((m.touch_dirty r path).symm.trans hd)
    | start m as c r options => exact .inr ((c.start_dirty m r options path).symm.trans hd)
    | work pre post next => exact .inr ((Active.next?_dirty next path).symm.trans hd)
    | finish m pre post run o => exact .inr ((Progress.finish_dirty_iff _ path).1 hd).1
    | fail => exact .inr hd
    | abandon => exact .inr hd
  · rintro (hset | ⟨hs, hnot⟩)
    · exact hset.dirty
    · cases h with
      | set m as r v => exact (m.setValue_dirty r v path).2 (.inl hs)
      | reset m as r =>
        exact (m.reset_dirty r path).2 ⟨hs, fun hr => hnot (.inl ⟨m, as, r, hr.1, hr.2⟩)⟩
      | touch m as r => exact (m.touch_dirty r path).trans hs
      | start m as c r options => exact (c.start_dirty m r options path).trans hs
      | work pre post next => exact (Active.next?_dirty next path).trans hs
      | finish m pre post run o =>
        refine (Progress.finish_dirty_iff _ path).2 ⟨hs, fun hf => hnot (.inr ?_)⟩
        exact ⟨run, _, rfl, hf⟩
      | fail => exact hs
      | abandon => exact hs

/-- From a clean path on, the mark is there exactly since it was made last and not taken away. -/
theorem Trace.dirty_iff {s₀ : Overlap} {es : List Event} (h : Trace s₀ es s) (path : String)
    (clean : (s₀.model.entry path).dirty = false) :
    (s.model.entry path).dirty = true ↔
      Since (SetAt path Model.Takes) (Unmarks path) s₀ es s := by
  constructor
  · intro hd
    induction h with
    | nil =>
      rw [clean] at hd
      cases hd
    | snoc before step ih =>
      rcases (step.dirty_iff path).1 hd with hset | ⟨hs, hnot⟩
      · exact .now before step hset
      · exact (ih hs).still step hnot
  · intro hsince
    clear h
    induction hsince with
    | now before step done => exact done.dirty
    | still _ step not ih => exact (step.dirty_iff path).2 (.inr ⟨ih, not⟩)

/-- A set is told by the model that it leaves. -/
theorem SetAt.exists {P : Model → Route → Option Value → Prop} (h : SetAt path P s e t) :
    ∃ r v, r.text = path ∧ P s.model r v ∧ t.model = (s.model.setValue r v).1 := by
  cases h with
  | intro m as r v at_ holds => exact ⟨r, v, at_, holds, rfl⟩

/-- **What dirty means.** In whatever way references are used and runs of a model overlap: a path is
dirty exactly if a set there has asked for another value than the one that was there, was not
refused, and since then the path has not been reset and no run that returned has forgotten its
record. So it is dirty exactly if a set has changed the value there since the path was reset last,
provided that no run that returned has forgotten the record and that no set since then has written
and left the value as it was. -/
theorem dirty_iff_set_since {rule : Rule} {data : Tree} {config : ModelConfig} {hist : List Event}
    {s : Overlap} (before : Trace (fresh rule data config) hist s) (path : String) :
    ((s.model.entry path).dirty = true ↔
      Since (SetAt path Model.Takes) (Unmarks path) (fresh rule data config) hist s) ∧
    (¬Forgotten hist path →
      ¬Since (SetAt path Model.Idles) (Resets path) (fresh rule data config) hist s →
      ((s.model.entry path).dirty = true ↔
        Since (SetAt path Model.Alters) (Resets path) (fresh rule data config) hist s)) := by
  have hdirty := before.dirty_iff path rfl
  refine ⟨hdirty, fun kept busy => hdirty.trans ⟨fun h => ?_, fun h => ?_⟩⟩
  · have hor : Since (fun s e t => SetAt path Model.Alters s e t ∨ SetAt path Model.Idles s e t)
        (Resets path) (fresh rule data config) hist s := by
      refine h.mono (fun s e t hset => ?_) fun s e t _ hr => .inl hr
      cases hset with
      | intro m as r v at_ holds =>
        exact (Model.takes_iff.1 holds).imp (⟨m, as, r, v, at_, ·⟩) (⟨m, as, r, v, at_, ·⟩)
    exact hor.or.resolve_right busy
  · refine h.mono (fun s e t hset => ?_) fun s e t he hu => hu.resolve_right ?_
    · cases hset with
      | intro m as r v at_ holds => exact ⟨m, as, r, v, at_, holds.takes⟩
    · rintro ⟨run, valid, rfl, covered, unvisited, -⟩
      exact kept ⟨run, valid, he, covered, unvisited⟩

/-- A path that is set is dirty, since no run has returned and the value is another one. -/
theorem dirty_iff_set_since_once : ∃ hist s,
    Trace (fresh memberRule (some (.object [("a", .int 1)])) {}) hist s ∧
    (s.model.entry "/a").dirty = true ∧
    Since (SetAt "/a" Model.Alters) (Resets "/a")
      (fresh memberRule (some (.object [("a", .int 1)])) {}) hist s := by
  have before : Trace (fresh memberRule (some (.object [("a", .int 1)])) {})
      ([] ++ [.referenced]) _ :=
    .snoc (.nil _) (.set _ _ [.key "a"] (some (.int 2)))
  have dirty := (dirty_iff_set_since before "/a").2 (fun h => ?_) fun h => ?_
  · exact ⟨_, _, before, by decide +kernel, dirty.1 (by decide +kernel)⟩
  · obtain ⟨run, valid, he, -⟩ := h
    simp at he
  · -- no set that leads here asks for anything but 2, which was not there
    obtain ⟨r, v, -, idles, hmodel⟩ := h.of_single.exists
    have hchanges := idles.1.changes
    rw [← hmodel] at hchanges
    have hv : some (.int 2) = v := (Prod.ext_iff.1 (List.cons.inj hchanges).1).2
    subst hv
    have distinct : (Value.object [("a", .int 1)]).Distinct :=
      .object (by decide) fun f hf => by
        cases List.mem_singleton.1 hf
        exact .number _
    cases (idles.null (fun w hw => Option.some.inj hw ▸ distinct)
      fun w hw => Option.some.inj hw ▸ .number _).1

/-- The data of the root have a member that no rule knows. It is set, and a run forgets that. -/
theorem mark_forgotten : ∃ hist s,
    Trace (fresh memberRule (some (.object [("x", .int 1)])) {}) hist s ∧
    Since (SetAt "/x" Model.Alters) (Resets "/x")
      (fresh memberRule (some (.object [("x", .int 1)])) {}) hist s ∧
    (s.model.entry "/x").dirty = false := by
  obtain ⟨m, hm⟩ : ∃ m, m = ((Model.ofRule memberRule (some (.object [("x", .int 1)])) {}).setValue
    [.key "x"] (some (.int 2))).1 := ⟨_, rfl⟩
  obtain ⟨o, ended⟩ : ∃ o, ((Call.validate.start m [] {}).1.advance 20
      (Call.validate.start m [] {}).2).2.1.outcome? = some o :=
    Option.isSome_iff_exists.1 (by rw [hm]; decide +kernel)
  have hset : Since (SetAt "/x" Model.Alters) (Resets "/x")
      (fresh memberRule (some (.object [("x", .int 1)])) {}) ([] ++ [.referenced]) ⟨m, []⟩ := by
    rw [hm]
    refine .now (.nil _) (.set _ _ _ _) ⟨_, _, [.key "x"], some (.int 2), by decide +kernel, ?_⟩
    intro hsame
    cases hsame
  have hbefore : Trace (fresh memberRule (some (.object [("x", .int 1)])) {}) ([] ++ [.referenced])
      ⟨m, []⟩ := by
    rw [hm]
    exact .snoc (.nil _) (.set _ _ _ _)
  have hrun := ((Trace.snoc (.nil _) (.start m [] .validate [] {})).trans
    (Trace.advance [] [] 20 _ _))
  rw [Active.eq_of_outcome? ended] at hrun
  have hrun := hrun.snoc (.finish _ [] [] _ o)
  refine ⟨_, _, hbefore.trans hrun, hset.extend hrun fun e he s t hreset => ?_, ?_⟩
  · cases hreset
    simp only [List.nil_append, List.mem_append, List.mem_singleton] at he
    rcases he with (he | he) | he
    · cases he
    · obtain ⟨k, act, he⟩ := Active.worked_of_advance he
      cases he
    · cases he
  · rw [hm]
    decide +kernel

/-- An item that is null is removed, which leaves it null. -/
theorem null_marked : ∃ hist s, Trace (fresh memberRule (some (.array [.null])) {}) hist s ∧
    (s.model.entry "/0").dirty = true ∧
    ¬Since (SetAt "/0" Model.Alters) (Resets "/0")
      (fresh memberRule (some (.array [.null])) {}) hist s := by
  refine ⟨[] ++ [.referenced], _, .snoc (.nil _) (.set _ _ [.index 0] none), by decide +kernel,
    fun h => ?_⟩
  obtain ⟨r, v, -, alters, hmodel⟩ := h.of_single.exists
  refine alters ?_
  rw [← hmodel]
  rfl

/-- **The mark misleads.** It is neither so that a path is dirty if a set has changed its value
since it was reset last, nor so that a set has done that if the path is dirty. -/
theorem dirty_misleads :
    (¬∀ (schema : Value) (rule : Rule) (data : Tree) (hist : List Event) (s : Overlap)
      (path : String), compile Registry.standard schema = .ok rule →
      Trace (fresh rule data {}) hist s →
      Since (SetAt path Model.Alters) (Resets path) (fresh rule data {}) hist s →
      (s.model.entry path).dirty = true) ∧
    ¬∀ (schema : Value) (rule : Rule) (data : Tree) (hist : List Event) (s : Overlap)
      (path : String), compile Registry.standard schema = .ok rule →
      Trace (fresh rule data {}) hist s → (s.model.entry path).dirty = true →
      Since (SetAt path Model.Alters) (Resets path) (fresh rule data {}) hist s := by
  constructor
  · intro h
    obtain ⟨hist, s, trace, since, clean⟩ := mark_forgotten
    rw [h memberSchema memberRule _ hist s "/x" compile_memberSchema trace since] at clean
    cases clean
  · intro h
    obtain ⟨hist, s, trace, dirty, not⟩ := null_marked
    exact not (h memberSchema memberRule _ hist s "/0" compile_memberSchema trace dirty)

end Overlap

end Conform
