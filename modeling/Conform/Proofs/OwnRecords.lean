import Conform.Proofs.Agreement
import Conform.Proofs.Stretch
import Conform.Proofs.Unslashed

/-!
# Every place has a record of its own

A run finds the record of a place by the text of its route. Where no key of the schema and of the
data holds a slash, two places that runs come to have the same text in one case only: the text of
the root is a slash, and so is that of the place under the empty key of the root.
-/

namespace Conform

namespace Route

variable {r q : Route}

theorem Unslashed.chars_inj (hr : r.Unslashed) (hq : q.Unslashed) (h : chars r = chars q) :
    r = q := by
  induction r generalizing q with
  | nil =>
    cases q with
    | nil => rfl
    | cons t q => cases h
  | cons s r ih =>
    cases q with
    | nil => cases h
    | cons t q =>
      obtain ⟨hs, hr⟩ := List.forall_mem_cons.1 hr
      obtain ⟨ht, hq⟩ := List.forall_mem_cons.1 hq
      rw [chars_cons, chars_cons] at h
      obtain ⟨htext, hchars⟩ := append_inj_of_atSlash hs.no_slash ht.no_slash (chars_atSlash r)
        (chars_atSlash q) (List.cons.inj h).2
      have hst : s = t := by rw [← hs.named, ← ht.named, String.toList_inj.1 htext]
      rw [hst, ih hr hq hchars]

/-- The place under the empty key of the root. -/
def unnamed : Route := [.key ""]

theorem unnamed_unslashed : unnamed.Unslashed :=
  List.forall_mem_singleton.2 (Segment.unslashed_ofText (k := "") (by decide))

/-- Only one other place has the text of the root. -/
theorem Unslashed.text_eq_root (hr : r.Unslashed) (hne : r ≠ []) :
    r.text = root.text ↔ r = unnamed := by
  constructor
  · intro h
    refine hr.chars_inj unnamed_unslashed ?_
    rw [← toList_text hne, h]
    rfl
  · rintro rfl
    rfl

/-- Of two places, the one is the root and the other lies under its empty key. -/
def Confused (r q : Route) : Prop := r = root ∧ q = unnamed ∨ r = unnamed ∧ q = root

/-- Texts without further slashes tell their routes, but for the root. -/
theorem Unslashed.text_eq_iff (hr : r.Unslashed) (hq : q.Unslashed) :
    r.text = q.text ↔ r = q ∨ r.Confused q := by
  constructor
  · intro h
    by_cases hr0 : r = []
    · subst hr0
      by_cases hq0 : q = []
      · exact .inl hq0.symm
      · exact .inr (.inl ⟨rfl, (hq.text_eq_root hq0).1 h.symm⟩)
    · by_cases hq0 : q = []
      · subst hq0
        exact .inr (.inr ⟨(hr.text_eq_root hr0).1 h, rfl⟩)
      · refine .inl (hr.chars_inj hq ?_)
        rw [← toList_text hr0, ← toList_text hq0, h]
  · rintro (rfl | ⟨rfl, rfl⟩ | ⟨rfl, rfl⟩) <;> rfl

end Route

def Frame.next : Frame → Outcome → Walk
  | through next => next
  | entered _ _ next => next

/-- Whether what is left of a run meets no slash, and the run is at work at no place with one. -/
structure Active.Unslashed (a : Active) : Prop where
  rest : a.rest.Unslashed
  frames : ∀ f ∈ a.frames, ∀ o, (f.next o).Unslashed
  tickets : ∀ t ∈ a.tickets, t.route.Unslashed

theorem Model.write_unslashed {m : Model} (h : m.tree.Unslashed) {r : Route} (hr : r.Unslashed)
    {v : Option Value} (hv : Tree.Unslashed v) : (m.write r v).model.tree.Unslashed :=
  write_tree h (h.set hr hv)

/-- A run enters no place but one that its walk asks it to visit. -/
theorem Active.asked_of_entered {a a' : Active} {m m' : Model} (hn : a.next? m = some (a', m'))
    {t : Ticket} (h : a.act m = .entered t) :
    ∃ d hint body next, a.rest = .visit t.route d hint body next := by
  cases moved hn with
  | passed meet | through meet =>
    simp only [act, meet] at h
    cases h
  | @entered run r d hint body next frames scope t' p meet enter =>
    simp only [act, meet, Act.entered.injEq] at h
    have hroute := Progress.enter_route ⟨run.discover r d, m⟩ r scope
    rw [enter, h] at hroute
    exact ⟨d, hint, body, next, by rw [hroute]⟩
  | _ => cases h

namespace Active.Unslashed

variable {a a' : Active} {m m' : Model}

theorem entered (h : a.Unslashed) (hn : a.next? m = some (a', m')) {t : Ticket}
    (ht : a.act m = .entered t) : t.route.Unslashed := by
  obtain ⟨d, hint, body, next, hrest⟩ := asked_of_entered hn ht
  have hwalk := h.rest
  rw [hrest] at hwalk
  exact hwalk.1

/-- Whatever place a step enters, settles or rolls back. -/
theorem of_act (h : a.Unslashed) (hn : a.next? m = some (a', m')) {t : Ticket}
    (ht : t ∈ (a.act m).ticket?) : t.route.Unslashed := by
  have hef := effect hn
  generalize hact : a.act m = act at hef ht
  cases hef with
  | quiet => cases ht
  | entered t' =>
    cases ht
    exact h.entered hn hact
  | settled t' o settle tickets =>
    cases ht
    exact h.tickets t (tickets ▸ List.mem_cons_self)
  | rolledBack t' rollBack tickets =>
    cases ht
    exact h.tickets t (tickets ▸ List.mem_cons_self)

theorem next_tickets (h : a.Unslashed) (hn : a.next? m = some (a', m')) :
    ∀ t ∈ a'.tickets, t.route.Unslashed := by
  intro t ht
  rcases (effect hn).mem_tickets ht with ht | ⟨hact, -⟩
  · exact h.tickets t ht
  · exact h.entered hn hact

/-- What a step leaves of the walk and of the visits around it, and the data that it leaves. -/
theorem next_walk (h : a.Unslashed) (hm : m.tree.Unslashed) (hn : a.next? m = some (a', m')) :
    (a'.rest.Unslashed ∧ ∀ f ∈ a'.frames, ∀ o, (f.next o).Unslashed) ∧ m'.tree.Unslashed := by
  obtain ⟨hrest, hframes, -⟩ := h
  cases moved hn with
  | ended =>
    obtain ⟨hf, houter⟩ := List.forall_mem_cons.1 hframes
    exact ⟨⟨hf _, houter⟩, hm⟩
  | settled settle =>
    obtain ⟨hf, houter⟩ := List.forall_mem_cons.1 hframes
    refine ⟨⟨hf _, houter⟩, ?_⟩
    rw [← settle, Progress.settle_tree]
    exact hm
  | broken => exact ⟨⟨trivial, (List.forall_mem_cons.1 hframes).2⟩, hm⟩
  | rolledBack rollBack =>
    refine ⟨⟨trivial, (List.forall_mem_cons.1 hframes).2⟩, ?_⟩
    rw [← rollBack, Progress.rollBack_tree]
    exact hm
  | read => exact ⟨⟨hrest _ (hm.get? _), hframes⟩, hm⟩
  | refused error =>
    obtain ⟨hr, hv, -⟩ := hrest
    exact ⟨⟨trivial, hframes⟩, Model.write_unslashed hm hr hv⟩
  | written ok =>
    obtain ⟨hr, hv, hnext⟩ := hrest
    exact ⟨⟨hnext, hframes⟩, Model.write_unslashed hm hr hv⟩
  | resumed => exact ⟨⟨hrest, hframes⟩, hm⟩
  | passed meet => exact ⟨⟨hrest.2.2 _, hframes⟩, hm⟩
  | through meet => exact ⟨⟨hrest.2.1 _, List.forall_mem_cons.2 ⟨hrest.2.2, hframes⟩⟩, hm⟩
  | @entered run r d hint body next frames scope t p meet enter =>
    refine ⟨⟨hrest.2.1 _, List.forall_mem_cons.2 ⟨hrest.2.2, hframes⟩⟩, ?_⟩
    have htree := Progress.enter_tree ⟨run.discover r d, m⟩ r scope
    rw [enter] at htree
    rw [htree]
    exact hm

theorem next (h : a.Unslashed) (hm : m.tree.Unslashed) (hn : a.next? m = some (a', m')) :
    a'.Unslashed ∧ m'.tree.Unslashed := by
  obtain ⟨⟨hrest, hframes⟩, htree⟩ := h.next_walk hm hn
  exact ⟨⟨hrest, hframes, h.next_tickets hn⟩, htree⟩

end Active.Unslashed

namespace Overlap

/-- A trace in which the data are of some kind at the start and whenever the caller has changed
something. -/
inductive Given (kind : Tree → Prop) (s₀ : Overlap) : List Event → Overlap → Prop where
  | nil (start : kind s₀.model.tree) : Given kind s₀ [] s₀
  | snoc {es : List Event} {e : Event} {s t : Overlap} (given : Given kind s₀ es s)
      (step : Step s e t) (data : e = .referenced → kind t.model.tree) :
      Given kind s₀ (es ++ [e]) t

theorem Given.of_trace {kind : Tree → Prop} {s₀ s : Overlap} {es : List Event}
    (trace : Trace s₀ es s) (start : kind s₀.model.tree) (none : .referenced ∉ es) :
    Given kind s₀ es s := by
  induction trace with
  | nil => exact .nil start
  | snoc _ step ih =>
    rw [List.mem_append, not_or, List.mem_singleton] at none
    exact .snoc (ih none.1) step fun he => absurd he.symm none.2

/-- A run comes to a place: to enter it, to go through it or to pass it over. -/
def Arrives (s : Overlap) (r : Route) : Prop :=
  ∃ a ∈ s.underWay, ∃ d hint body next, a.rest = .visit r d hint body next

/-- Whether neither the data nor what is left of the runs has a slash in a key. -/
structure Unslashed (s : Overlap) : Prop where
  rule : ∀ options, Walk.UnslashedAnywhere (s.model.rule.walk options)
  tree : s.model.tree.Unslashed
  runs : ∀ a ∈ s.underWay, a.Unslashed

namespace Unslashed

variable {s t : Overlap}

theorem arrives (h : s.Unslashed) {r : Route} (hr : s.Arrives r) : r.Unslashed := by
  obtain ⟨a, ha, d, hint, body, next, hrest⟩ := hr
  have hwalk := (h.runs a ha).rest
  rw [hrest] at hwalk
  exact hwalk.1

theorem step {e : Event} (h : s.Unslashed) (hstep : Step s e t)
    (data : e = .referenced → t.model.tree.Unslashed) : t.Unslashed := by
  cases hstep with
  | set m as r v =>
    have hrule := (m.setValue_states r v).rule
    exact ⟨fun options => by rw [hrule]; exact h.rule options, data rfl, h.runs⟩
  | reset m as r =>
    have hrule := (m.reset_states r).rule
    exact ⟨fun options => by rw [hrule]; exact h.rule options, data rfl, h.runs⟩
  | touch m as r => exact ⟨h.rule, h.tree, h.runs⟩
  | start m as c r options =>
    have hmodel : (c.start m r options).2.rule = m.rule ∧
        (c.start m r options).2.tree = m.tree := by cases c <;> exact ⟨rfl, rfl⟩
    refine ⟨fun o => by rw [hmodel.1]; exact h.rule o, by rw [hmodel.2]; exact h.tree, ?_⟩
    refine List.forall_mem_append.2 ⟨h.runs, List.forall_mem_singleton.2 ?_⟩
    obtain ⟨e, hrest, hframes⟩ := c.start_rest m r options
    refine ⟨?_, by simp [hframes], by simp⟩
    have hroot : Route.Unslashed [] := fun _ hs => nomatch hs
    rw [hrest]
    exact ⟨hroot, fun mode => h.rule e mode [] hroot, fun _ => trivial⟩
  | work pre post next =>
    rename_i m m' a a'
    have hrule : m'.rule = m.rule := (Active.effect next).kept.rule
    obtain ⟨ha, hm⟩ := (h.runs a (by simp)).next h.tree next
    refine ⟨fun o => by rw [hrule]; exact h.rule o, hm, fun b hb => ?_⟩
    rcases mem_middle.1 hb with rfl | hb
    · exact ha
    · exact h.runs b (mem_middle.2 (.inr hb))
  | finish m pre post run o =>
    exact ⟨h.rule, h.tree, fun b hb => h.runs b (mem_middle.2 (.inr hb))⟩
  | fail m pre post run e =>
    exact ⟨h.rule, h.tree, fun b hb => h.runs b (mem_middle.2 (.inr hb))⟩
  | abandon m pre post a =>
    exact ⟨h.rule, h.tree, fun b hb => h.runs b (mem_middle.2 (.inr hb))⟩

end Unslashed

section

variable {kind : Tree → Prop} {s₀ s : Overlap} {es : List Event}

theorem Given.unslashed (h : Given Tree.Unslashed s₀ es s)
    (rule : ∀ options, Walk.UnslashedAnywhere (s₀.model.rule.walk options))
    (idle : s₀.underWay = []) : s.Unslashed := by
  induction h with
  | nil start => exact ⟨rule, start, by rw [idle]; exact fun a ha => nomatch ha⟩
  | snoc _ step data ih => exact ih.step step data

/-- A place that a run can arrive at. -/
def Reachable (kind : Tree → Prop) (s₀ : Overlap) (r : Route) : Prop :=
  ∃ es s, Given kind s₀ es s ∧ s.Arrives r

theorem Given.reachable (h : Given kind s₀ es s) {n : Nat} {t : Ticket}
    (hm : .worked n (.entered t) ∈ es) : Reachable kind s₀ t.route := by
  induction h with
  | nil => cases hm
  | @snoc es e s v given step data ih =>
    rcases List.mem_append.1 hm with hm | hm
    · exact ih hm
    · refine ⟨es, s, given, ?_⟩
      rw [← List.mem_singleton.1 hm] at step
      generalize he : Event.worked n (.entered t) = e at step
      cases step with
      | @work m m' a a' pre post next =>
        obtain ⟨-, hact⟩ := Event.worked.inj he
        exact ⟨a, by simp, Active.asked_of_entered next hact.symm⟩
      | _ => cases he

end

/-- **Places and records.** Let no key of the schema hold a slash, and none of the data either, at
the start and after whatever the caller does. Then two places that runs come to have the same path
only if they are the same, or the one is the root and the other lies under its empty key. So but for
these two, any two visits find and commit different records: what a step does to the record of its
own place it does not do to that of any other. -/
theorem text_eq_iff_of_reachable {schema : Value} {rule : Rule}
    (compiled : compile .standard schema = .ok rule) (unslashed : schema.Unslashed) (data : Tree)
    (config : ModelConfig) :
    (∀ r q, Reachable Tree.Unslashed (fresh rule data config) r →
      Reachable Tree.Unslashed (fresh rule data config) q →
      (r.text = q.text ↔ r = q ∨ r.Confused q)) ∧
    ∀ es s, Given Tree.Unslashed (fresh rule data config) es s →
      (∀ n t k u, .worked n (.entered t) ∈ es → .worked k (.entered u) ∈ es →
        (t.route.text = u.route.text ↔ t.route = u.route ∨ t.route.Confused u.route)) ∧
      ∀ n act v, Step s (.worked n act) v → ∀ t ∈ act.ticket?, ∀ r,
        Reachable Tree.Unslashed (fresh rule data config) r → t.route ≠ r →
        ¬ t.route.Confused r → v.model.state? r.text = s.model.state? r.text := by
  have hrule : ∀ options,
      Walk.UnslashedAnywhere ((fresh rule data config).model.rule.walk options) := fun options =>
    Rule.walk_unslashed options (compile_made Value.spread_unslashed unslashed compiled)
  have hplace : ∀ r, Reachable Tree.Unslashed (fresh rule data config) r → r.Unslashed := by
    rintro r ⟨es, s, given, arrives⟩
    exact (given.unslashed hrule rfl).arrives arrives
  refine ⟨fun r q hr hq => (hplace r hr).text_eq_iff (hplace q hq), fun es s given => ⟨?_, ?_⟩⟩
  · intro n t k u ht hu
    exact (hplace _ (given.reachable ht)).text_eq_iff (hplace _ (given.reachable hu))
  · intro n act v step t ht r hr hne hconfused
    have hs := given.unslashed hrule rfl
    generalize he : Event.worked n act = e at step
    cases step with
    | @work m m' a a' pre post next =>
      obtain ⟨-, rfl⟩ := Event.worked.inj he
      have htext := ((hs.runs a (by simp)).of_act next ht).text_eq_iff (hplace r hr)
      refine (Active.effect next).state?_elsewhere fun t' ht' heq => ?_
      rw [Option.mem_unique ht' ht] at heq
      exact (htext.1 heq).elim hne hconfused
    | _ => cases he

/-- A schema that allows nothing under the empty key. -/
def unnamedSchema : Value := .object [("properties", .object [("", .bool false)])]

/-- The rule of `unnamedSchema`. -/
def unnamedRule : Rule :=
  .node "#" [.leaf (.annotations none [] {}),
    .properties [.mk "" false (.node "#/properties" [.leaf .never] {} {})]] {} {}

theorem compile_unnamedSchema : compile .standard unnamedSchema = .ok unnamedRule := rfl

theorem unnamedSchema_unslashed : unnamedSchema.Unslashed := by
  refine .object (List.forall_mem_singleton.2 (by decide)) (List.forall_mem_singleton.2 ?_)
  exact .object (List.forall_mem_singleton.2 (by decide))
    (List.forall_mem_singleton.2 (.bool false))

/-- A run that has entered the root and the place under its empty key. -/
theorem unnamed_entered :
    ∃ es s t u, Given Tree.Unslashed (fresh unnamedRule (some (.object [("", .nat 1)])) {}) es s ∧
      .worked 1 (.entered t) ∈ es ∧ .worked 1 (.entered u) ∈ es ∧ t.route = Route.root ∧
      u.route = Route.unnamed := by
  refine ⟨_, _, _, _, .of_trace (.snoc (.snoc (.snoc (.snoc (.snoc (.nil _)
    (.start _ _ .validate [] {})) (.work [] [] rfl)) (.work [] [] rfl)) (.work [] [] rfl))
    (.work [] [] rfl)) (Tree.unslashed_some.2 ?_) (by simp), List.mem_append_left _
    (List.mem_append_left _ (List.mem_append_left _ (List.mem_append_right _
      (List.mem_singleton.2 rfl)))), List.mem_append_right _ (List.mem_singleton.2 rfl), rfl, rfl⟩
  exact .object (List.forall_mem_singleton.2 (by decide))
    (List.forall_mem_singleton.2 (.number _))

/-- The two visits find the same record. -/
theorem text_eq_iff_of_reachable_unnamed :
    ∃ es s t u, Given Tree.Unslashed (fresh unnamedRule (some (.object [("", .nat 1)])) {}) es s ∧
      .worked 1 (.entered t) ∈ es ∧ .worked 1 (.entered u) ∈ es ∧ t.route ≠ u.route ∧
      t.route.text = u.route.text := by
  obtain ⟨es, s, t, u, given, ht, hu, hroot, hunnamed⟩ := unnamed_entered
  have h := ((text_eq_iff_of_reachable compile_unnamedSchema unnamedSchema_unslashed _ {}).2 es s
    given).1 1 t 1 u ht hu
  refine ⟨es, s, t, u, given, ht, hu, ?_, h.2 (.inr (.inl ⟨hroot, hunnamed⟩))⟩
  rw [hroot, hunnamed]
  decide

/-- That any two visits of a run at different places find different records, where no key holds a
slash. -/
def RecordsApart : Prop :=
  ∀ (schema : Value) (rule : Rule) (data : Tree) (config : ModelConfig) (es : List Event)
    (s : Overlap), compile .standard schema = .ok rule → schema.Unslashed →
    Given Tree.Unslashed (fresh rule data config) es s → ∀ n t u,
      .worked n (.entered t) ∈ es → .worked n (.entered u) ∈ es → t.route ≠ u.route →
      t.route.text ≠ u.route.text

/-- The root shares its record with the place under its empty key. -/
theorem records_not_apart : ¬ RecordsApart := by
  intro h
  obtain ⟨es, s, t, u, given, ht, hu, hroot, hunnamed⟩ := unnamed_entered
  refine h unnamedSchema unnamedRule _ {} es s compile_unnamedSchema unnamedSchema_unslashed given
    1 t u ht hu ?_ ?_
  · rw [hroot, hunnamed]
    decide
  · rw [hroot, hunnamed]
    rfl

end Overlap

end Conform
