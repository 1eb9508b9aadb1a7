import Conform.Proofs.RootRun
import Mathlib.Data.List.Forall2

/-!
# Probes

A rule is probed by running it on a copy of the value at its place. Seen from outside, a probe of a
rule of built-in keywords is a single read: nothing is written, entered or counted, wherever the
rule is probed and however deep the probes are nested. And what a probe says is what the rule says
when it is run for real in the same place: evaluation on the copy and evaluation on what it was
copied from go the same way.
-/

namespace Conform

/-- A copy that a walk works on: of which place, what it holds, and what is done after the walk. -/
structure Copy where
  base : Route
  tree : Tree
  rest : Outcome → Tree → Walk

/-- A walk on the innermost of some copies, as the host outside them gets to see it. -/
def Walk.within (w : Walk) : List Copy → Walk
  | [] => w
  | c :: copies => (w.shield c.base c.rest c.tree).within copies

/-- The value at a place for a walk on the innermost of some copies; `t` is the tree outside. -/
def Copy.seen (t : Tree) (r : Route) : List Copy → Option Value
  | [] => t.get? r
  | c :: copies =>
    match Route.below? c.base r with
    | some q => c.tree.get? q
    | none => seen t r copies

namespace Walk

/-- A read is answered by one of the copies, or by the host outside. -/
theorem within_read (r : Route) (next : Option Value → Walk) (copies : List Copy) :
    (∃ v, (∀ t, Copy.seen t r copies = v) ∧
        (read r next).within copies = (next v).within copies) ∨
      (∀ t, Copy.seen t r copies = t.get? r) ∧
        (read r next).within copies = read r fun v => (next v).within copies := by
  induction copies generalizing next with
  | nil => exact .inr ⟨fun t => rfl, rfl⟩
  | cons c copies ih =>
    cases hq : Route.below? c.base r with
    | some q =>
      refine .inl ⟨c.tree.get? q, fun t => ?_, ?_⟩
      · simp only [Copy.seen, hq]
      · simp only [within, shield, hq]
    | none =>
      simp only [Copy.seen, within, shield, hq]
      exact ih fun v => (next v).shield c.base c.rest c.tree

/-- The probe of a walk that keeps to its place is a read of the place. -/
theorem Confined.probe_eq {w : Walk} {place : Route} {known : Tree → Prop}
    (h : w.Confined place known) : ∃ trial : Option Value → Trial, ∀ k,
      w.probe place k = read place fun v => (trial v).goOn fun o _ => k o := by
  exact ⟨fun v => (h.trial v).choose, fun k =>
    congrArg (read place) (funext fun v => (h.trial v).choose_spec _)⟩

end Walk

/-- **Probes leave no trace.** Seen from outside, a probe is the look at one value and what comes
after the probe. It takes a run at most one step, before and after which the run, the visits under
way, the model and all copies around the probe are the same; an evaluation on a tree of its own sees
no difference either. -/
theorem probe_leaves_no_trace {rule : Rule} (builtIn : rule.isBuiltIn = true)
    (options : EvalOptions) (route : Route) :
    ∃ trial : Option Value → Walk.Trial, ∀ (k : Outcome → Walk) (copies : List Copy),
      (∀ (run : Run) (frames : List Frame) (m : Model),
        let before : Active := ⟨run, ((rule.walker options).probe route k).within copies, frames⟩
        let after : Active := ⟨run, ((trial (Copy.seen m.tree route copies)).goOn
          fun o _ => k o).within copies, frames⟩
        before = after ∨ before.next? m = some (after, m)) ∧
      (∀ (isOpen : String → Bool) (p : Progress),
        (((rule.walker options).probe route k).within copies).drive isOpen p =
          (((trial (Copy.seen p.model.tree route copies)).goOn
            fun o _ => k o).within copies).drive isOpen p) ∧
      ∀ (isOpen : String → Bool) (t : Tree),
        (((rule.walker options).probe route k).within copies).detached isOpen t =
          (((trial (Copy.seen t route copies)).goOn
            fun o _ => k o).within copies).detached isOpen t := by
  obtain ⟨trial, htrial⟩ := (Rule.walk_confined options builtIn .full route).probe_eq
  refine ⟨trial, fun k copies => ?_⟩
  have hprobe : (rule.walker options).probe route k =
      .read route fun v => (trial v).goOn fun o _ => k o := htrial k
  rw [hprobe]
  rcases Walk.within_read route (fun v => (trial v).goOn fun o _ => k o) copies with
    ⟨v, hseen, hread⟩ | ⟨hseen, hread⟩
  · refine ⟨fun run frames m => .inl ?_, fun isOpen p => ?_, fun isOpen t => ?_⟩
    · rw [hread, hseen]
    · rw [hread, hseen]
    · rw [hread, hseen]
  · refine ⟨fun run frames m => .inr ?_, fun isOpen p => ?_, fun isOpen t => ?_⟩
    · rw [hread, hseen]
      rfl
    · rw [hread, hseen]
      rfl
    · rw [hread, hseen]
      rfl

/-- A rule that excludes what fills in a number, and fills it in otherwise. -/
def nestedRule : Rule :=
  .node "#" [.anyOf
    [.node "#/anyOf/0" [.excluded
        (.node "#/anyOf/0/not" [.leaf (.annotations (some (.int 1)) [] {})] {} {})] {} {},
      .node "#/anyOf/1" [.leaf (.annotations (some (.int 1)) [] {})] {} {}]] {} {}

/-- The number is filled in on copies within copies, and the run that comes to the outcome is the
one that it was. -/
theorem probe_leaves_no_trace_nested :
    ∃ p o, p = Call.validate.progress (Model.ofRule nestedRule none {}) [] {} ∧
      (((nestedRule.walker {}).probe [.key "a"] .done).within
        [⟨[], some (.object []), fun o _ => .done o⟩]).drive (fun _ => true) p = .done o p ∧
      o.passes = true := by
  have builtIn : nestedRule.isBuiltIn = true := rfl
  obtain ⟨trial, htrial⟩ := probe_leaves_no_trace builtIn {} [.key "a"]
  obtain ⟨-, hdrive, -⟩ := htrial .done [⟨[], some (.object []), fun o _ => .done o⟩]
  have hdone : ∃ o q, (((nestedRule.walker {}).probe [.key "a"] .done).within
      [⟨[], some (.object []), fun o _ => .done o⟩]).drive (fun _ => true)
      (Call.validate.progress (Model.ofRule nestedRule none {}) [] {}) = .done o q ∧
      o.passes = true := ⟨_, _, rfl, rfl⟩
  obtain ⟨o, q, ho, hpasses⟩ := hdone
  refine ⟨_, o, rfl, ?_, hpasses⟩
  rw [hdrive] at ho ⊢
  revert ho
  cases trial _ with
  | broken e => exact fun ho => (by cases ho)
  | passed o' c =>
    intro ho
    cases ho
    rfl

/-- What serves a walk. Of a copy, what lies around it does not count: a walk that keeps to its
place never asks for it. -/
inductive Host where
  | alone (tree : Tree)
  | run (p : Progress)
  | copy (base : Route) (tree : Tree)

namespace Host

/-- The value at a place. -/
def view (r : Route) : Host → Option Value
  | alone t => t.get? r
  | run p => p.model.tree.get? r
  | copy base t => (Route.below? base r).bind t.get?

/-- Whether the host enters the place and all that lies below in full. -/
def InFull (r : Route) : Host → Prop
  | alone _ => True
  | run p => p.run.fromRoot = true
  | copy base _ => base <+: r

/-- Whether the host has the place. -/
def Serves (r : Route) : Host → Prop
  | alone _ => True
  | run _ => True
  | copy base _ => base <+: r

theorem InFull.serves {r : Route} {h : Host} (inFull : h.InFull r) : h.Serves r := by
  cases h with
  | alone t => trivial
  | run p => trivial
  | copy base t => exact inFull

end Host

namespace Walk

/-- The walk comes to an outcome on a host and leaves it as another. -/
inductive Returns (w : Walk) : Host → Outcome → Host → Prop
  | alone {isOpen : String → Bool} {t t' : Tree} {o : Outcome}
      (h : w.detached isOpen t = .finished o t') : Returns w (.alone t) o (.alone t')
  | run {isOpen : String → Bool} {p p' : Progress} {o : Outcome}
      (h : w.drive isOpen p = .done o p') : Returns w (.run p) o (.run p')
  | copy {base : Route} {t t' : Tree} {o : Outcome}
      (h : w.ComesTo base t (.passed o t')) : Returns w (.copy base t) o (.copy base t')

/-- **A copy of a part behaves as the part.** What a walk comes to on a copy of a wider place it
comes to on a copy of its own place, which ends as that place does. -/
theorem Confined.comesTo_append {w : Walk} {place base q : Route} {known : Tree → Prop}
    (h : w.Confined place known) (hp : place = base ++ q) {copy copy' : Tree} {o : Outcome}
    (hw : w.ComesTo base copy (.passed o copy')) :
    w.ComesTo place (copy.get? q) (.passed o (copy'.get? q)) := by
  induction w generalizing known copy copy' o with
  | done o' =>
    cases hw.unique (y := .passed o' copy) fun k => rfl
    exact fun k => rfl
  | fail e => cases hw.unique (y := .broken e) fun k => rfl
  | read r next ih =>
    obtain ⟨s, rfl⟩ := h.1
    have hnext : (next (copy.get? (q ++ s))).ComesTo base copy (.passed o copy') := by
      intro k
      rw [← hw k, hp, List.append_assoc, shield_read]
    intro k
    rw [shield_read, ← Tree.get?_append]
    exact ih _ (h.2 _) hnext k
  | write r v next ih =>
    obtain ⟨s, rfl⟩ := h.1
    cases hset : (Tree.set copy (q ++ s) v).refusal with
    | some e =>
      refine absurd (hw.unique (y := .broken (.storage e)) fun k => ?_) (by simp)
      rw [hp, List.append_assoc, shield_write_refused hset]
      rfl
    | none =>
      have hnext : next.ComesTo base (Tree.set copy (q ++ s) v).result (.passed o copy') := by
        intro k
        rw [← hw k, hp, List.append_assoc, shield_write hset]
      obtain ⟨hset', hget⟩ :=
        Tree.get?_set_append (fun hs => h.2.1 (by rw [hs, List.append_nil])) hset
      intro k
      rw [shield_write hset', ← hget]
      exact ih h.2.2.2 hnext k
  | await g next ih => exact absurd h id
  | visit r d hint body next ihb ihn =>
    have hbody := (h.2.1 .full).widen h.1
    obtain ⟨x, hx⟩ := (hbody.widen ⟨q, hp.symm⟩).trial copy
    cases x with
    | broken e => cases hw.unique (y := .broken e) fun k => hx _
    | passed o₁ copy₁ =>
      have hnext : (next (Outcome.merge [hint, o₁])).ComesTo base copy₁ (.passed o copy') :=
        fun k => (hx _).symm.trans (hw k)
      exact fun k => (ihb .full hbody hx _).trans (ihn _ (h.2.2 _) hnext k)

/-- A tree of its own serves a walk as a copy of the root does. -/
theorem detached_shield_root (isOpen : String → Bool) (w : Walk) (k : Outcome → Tree → Walk)
    (t t' : Tree) :
    (w.shield [] k t).detached isOpen t' =
      match w.detached isOpen t with
      | .finished o c => (k o c).detached isOpen t'
      | .failed e => .failed e
      | .pending g => .pending g := by
  induction w generalizing k t with
  | done o => rfl
  | fail e => rfl
  | read r next ih => exact ih _ k t
  | write r v next ih =>
    simp only [shield, Route.below?, detached]
    cases (Tree.set t r v).refusal with
    | some e => rfl
    | none => exact ih k _
  | await g next ih =>
    simp only [shield, detached]
    split
    · exact ih k t
    · rfl
  | visit r d hint body next ihb ihn =>
    simp only [shield, detached, ihb]
    cases (body .full).detached isOpen t with
    | finished o c => exact ihn _ k c
    | failed e => rfl
    | pending g => rfl

theorem Confined.comesTo_of_detached {w : Walk} {place : Route} {known : Tree → Prop}
    (h : w.Confined place known) {isOpen : String → Bool} {t t' : Tree} {o : Outcome}
    (hd : w.detached isOpen t = .finished o t') : w.ComesTo [] t (.passed o t') := by
  obtain ⟨x, hx⟩ := (h.widen List.nil_prefix).trial t
  have hroot := detached_shield_root isOpen w (fun o c => write [] c (done o)) t none
  rw [hx, hd] at hroot
  cases x with
  | broken e => cases hroot
  | passed o' c =>
    cases hroot
    exact hx

variable {w : Walk} {route : Route} {h h' : Host} {o : Outcome}

/-- What a walk comes to on a host that serves its place in full it comes to on a copy of the place.
-/
theorem Confined.returns_copy (hw : w.Confined route fun _ => True) (inFull : h.InFull route)
    (real : w.Returns h o h') :
    w.Returns (.copy route (h.view route)) o (.copy route (h'.view route)) := by
  refine .copy ?_
  cases real with
  | alone hd => exact hw.comesTo_append rfl (hw.comesTo_of_detached hd)
  | @run isOpen p p' o hd =>
    have hagrees := hw.agrees isOpen inFull trivial
    rw [hd] at hagrees
    exact hw.comesTo_append rfl (hw.comesTo_of_detached hagrees.of_done)
  | @copy base t t' o hd =>
    obtain ⟨q, rfl⟩ := inFull
    simp only [Host.view, Route.below?_append, Option.bind_some]
    exact hw.comesTo_append rfl hd

theorem Returns.unique {copy₁ copy₂ : Tree} {o₁ o₂ : Outcome} {t : Tree}
    (h₁ : w.Returns (.copy route t) o₁ (.copy route copy₁))
    (h₂ : w.Returns (.copy route t) o₂ (.copy route copy₂)) : o₁ = o₂ ∧ copy₁ = copy₂ := by
  cases h₁ with
  | copy h₁ =>
    cases h₂ with
    | copy h₂ =>
      cases h₁.unique h₂
      exact ⟨rfl, rfl⟩

section

variable {x y : Walk}

theorem returns_alone_congr {t t' : Tree}
    (same : ∀ isOpen, x.detached isOpen t = y.detached isOpen t') :
    x.Returns (.alone t) o h' ↔ y.Returns (.alone t') o h' := by
  constructor
  · intro real
    cases real with
    | alone hd => exact .alone ((same _).symm.trans hd)
  · intro real
    cases real with
    | alone hd => exact .alone ((same _).trans hd)

theorem returns_run_congr {p p' : Progress}
    (same : ∀ isOpen, x.drive isOpen p = y.drive isOpen p') :
    x.Returns (.run p) o h' ↔ y.Returns (.run p') o h' := by
  constructor
  · intro real
    cases real with
    | run hd => exact .run ((same _).symm.trans hd)
  · intro real
    cases real with
    | run hd => exact .run ((same _).trans hd)

theorem returns_copy_congr {base : Route} {t t' : Tree}
    (same : ∀ k, x.shield base k t = y.shield base k t') :
    x.Returns (.copy base t) o h' ↔ y.Returns (.copy base t') o h' := by
  constructor
  · intro real
    cases real with
    | copy hd => exact .copy fun k => (same k).symm.trans (hd k)
  · intro real
    cases real with
    | copy hd => exact .copy fun k => (same k).trans (hd k)

end

/-- A look at a place that the host serves. -/
theorem returns_read_iff {next : Option Value → Walk} (serves : h.Serves route) :
    (read route next).Returns h o h' ↔ (next (h.view route)).Returns h o h' := by
  cases h with
  | alone t => exact returns_alone_congr fun isOpen => rfl
  | run p => exact returns_run_congr fun isOpen => rfl
  | copy base t =>
    obtain ⟨q, rfl⟩ := serves
    refine returns_copy_congr fun k => ?_
    rw [shield_read, Host.view, Route.below?_append]
    rfl

theorem returns_done_iff {o' : Outcome} : (done o').Returns h o h' ↔ o = o' ∧ h' = h := by
  constructor
  · intro real
    cases real with
    | alone hd =>
      cases hd
      exact ⟨rfl, rfl⟩
    | run hd =>
      cases hd
      exact ⟨rfl, rfl⟩
    | @copy base t t' o hd =>
      cases hd.unique (y := .passed o' t) fun k => rfl
      exact ⟨rfl, rfl⟩
  · rintro ⟨rfl, rfl⟩
    cases h' with
    | alone t => exact .alone (rfl : (done o).detached (fun _ => true) t = _)
    | run p => exact .run (rfl : (done o).drive (fun _ => true) p = _)
    | copy base t => exact .copy fun k => rfl

theorem Returns.not_fail {e : RuleError} : ¬ (fail e).Returns h o h' := by
  intro hr
  cases hr with
  | alone hd => cases hd
  | run hd => cases hd
  | copy hd => cases hd.unique (y := .broken e) fun k => rfl

end Walk

section

variable {route : Route} {h h' : Host} {o : Outcome}

/-- The outcome of a probe at a place that holds `v`. -/
def Walker.Tries (w : Walker) (route : Route) (v : Option Value) (o : Outcome) : Prop :=
  ∃ c, (w.walk .full route).Returns (.copy route v) o (.copy route c)

theorem Walker.Tries.unique {w : Walker} {v : Option Value} {o₁ o₂ : Outcome}
    (h₁ : w.Tries route v o₁) (h₂ : w.Tries route v o₂) : o₁ = o₂ := by
  obtain ⟨c₁, h₁⟩ := h₁
  obtain ⟨c₂, h₂⟩ := h₂
  exact (h₁.unique h₂).1

/-- After a probe the host is as it was, and the walk goes on with what was tried. -/
theorem Walker.returns_of_probe {w : Walker} (hw : w.Confined) {k : Outcome → Walk}
    (inFull : h.InFull route) (real : (w.probe route k).Returns h o h') :
    ∃ o', w.Tries route (h.view route) o' ∧ (k o').Returns h o h' := by
  have hnext := (Walk.returns_read_iff inFull.serves).1 real
  obtain ⟨x, hx⟩ := (hw .full route).trial (h.view route)
  rw [hx] at hnext
  cases x with
  | broken e => exact absurd hnext Walk.Returns.not_fail
  | passed o' c => exact ⟨o', ⟨c, .copy hx⟩, hnext⟩

theorem Walker.Tries.probe {w : Walker} {o' : Outcome} {k : Outcome → Walk}
    (tries : w.Tries route (h.view route) o') (inFull : h.InFull route)
    (real : (k o').Returns h o h') : (w.probe route k).Returns h o h' := by
  obtain ⟨c, hc⟩ := tries
  cases hc with
  | copy hc =>
    refine (Walk.returns_read_iff inFull.serves).2 ?_
    rw [hc]
    exact real

/-- A branch that is applied says what it said when it was tried. -/
theorem Walker.Tries.applied {w : Walker} (hw : w.Confined) {o' : Outcome}
    (tries : w.Tries route (h.view route) o') (inFull : h.InFull route)
    (real : (w.walk .full route).Returns h o h') : o = o' :=
  Walker.Tries.unique ⟨_, (hw .full route).returns_copy inFull real⟩ tries

namespace Check

/-- If `anyOf` fails, it has tried all branches in vain. -/
theorem anyOfWalk_tried {ws : List Walker} (hws : ∀ w ∈ ws, w.Confined)
    (inFull : h.InFull route) (real : (anyOfWalk .full route ws).Returns h o h')
    (bad : o.isInvalid = true) :
    ∃ tried, List.Forall₂ (fun w o' => w.Tries route (h.view route) o') ws tried ∧
      ∀ o' ∈ tried, o'.isInvalid = true := by
  induction ws with
  | nil => exact ⟨[], .nil, fun o' ho => (by cases ho)⟩
  | cons w ws ih =>
    obtain ⟨hw, hws⟩ := List.forall_mem_cons.1 hws
    obtain ⟨o', tries, hnext⟩ := Walker.returns_of_probe hw inFull real
    cases hi : o'.isInvalid with
    | true =>
      rw [Outcome.passes, hi] at hnext
      obtain ⟨tried, htried, hall⟩ := ih hws hnext
      exact ⟨o' :: tried, .cons tries htried, List.forall_mem_cons.2 ⟨hi, hall⟩⟩
    | false =>
      rw [Outcome.passes, hi] at hnext
      rw [tries.applied hw inFull hnext, hi] at bad
      cases bad

/-- `oneOf` fails exactly if the number of branches that pass when tried is not one. -/
theorem oneOfWalk_tried {matched ws : List Walker}
    (hm : ∀ w ∈ matched, w.Confined ∧ ∃ o', w.Tries route (h.view route) o' ∧ o'.passes = true)
    (hws : ∀ w ∈ ws, w.Confined) (inFull : h.InFull route)
    (real : (oneOfWalk .full route matched ws).Returns h o h') :
    ∃ tried, List.Forall₂ (fun w o' => w.Tries route (h.view route) o') ws tried ∧
      (o.isInvalid = true ↔ matched.length + tried.countP Outcome.passes ≠ 1) := by
  induction ws generalizing matched with
  | nil =>
    refine ⟨[], .nil, ?_⟩
    match matched with
    | [] =>
      rw [(Walk.returns_done_iff.1 real).1]
      simp
    | [w] =>
      obtain ⟨hw, o', tries, hp⟩ := hm w List.mem_cons_self
      rw [tries.applied hw inFull real]
      simpa [Outcome.passes] using hp
    | w :: w' :: rest =>
      rw [(Walk.returns_done_iff.1 real).1]
      simp
  | cons w ws ih =>
    obtain ⟨hw, hws⟩ := List.forall_mem_cons.1 hws
    rw [oneOfWalk] at real
    obtain ⟨o', tries, hnext⟩ := Walker.returns_of_probe hw inFull real
    cases hp : o'.passes with
    | true =>
      rw [hp, if_pos rfl] at hnext
      have hmatched : ∀ w' ∈ matched ++ [w], w'.Confined ∧
          ∃ o', w'.Tries route (h.view route) o' ∧ o'.passes = true := by
        intro w' hw'
        rcases List.mem_append.1 hw' with hw' | hw'
        · exact hm w' hw'
        · rw [List.mem_singleton.1 hw']
          exact ⟨hw, o', tries, hp⟩
      obtain ⟨tried, htried, hiff⟩ := ih hmatched hws hnext
      refine ⟨o' :: tried, .cons tries htried, ?_⟩
      rw [hiff, List.countP_cons_of_pos hp, List.length_append, List.length_singleton]
      omega
    | false =>
      rw [hp, if_neg (by decide)] at hnext
      obtain ⟨tried, htried, hiff⟩ := ih hm hws hnext
      refine ⟨o' :: tried, .cons tries htried, ?_⟩
      rw [hiff, List.countP_cons_of_neg (by simp [hp])]

end Check

end

/-- **Probing predicts.** Where a host serves a place in full, be it a run at the root, a tree of
its own or a copy however deep within other copies, a rule that comes to an outcome there has come
to the same when it is probed beforehand, and the copy of the probe ends as what the rule leaves at
the place. So a branch that is chosen because it passes when it is tried passes when it is applied:
`anyOf` fails only if all branches have been tried in vain, and `oneOf` exactly if the number of
those that pass is not one. -/
theorem probe_predicts (options : EvalOptions) {route : Route} {h : Host}
    (inFull : h.InFull route) :
    (∀ rule : Rule, rule.isBuiltIn = true → ∀ o h', (rule.walk options .full route).Returns h o h' →
      (rule.walk options .full route).Returns (.copy route (h.view route)) o
          (.copy route (h'.view route)) ∧
        ∀ k o₂ h₂, (k o).Returns h o₂ h₂ →
          ((rule.walker options).probe route k).Returns h o₂ h₂) ∧
    (∀ branches : List Rule, (∀ b ∈ branches, b.isBuiltIn = true) → ∀ o h',
      ((Check.anyOf branches).walk options .full route).Returns h o h' → o.isInvalid = true →
      ∃ tried, List.Forall₂ (fun b o' => (b.walker options).Tries route (h.view route) o')
        branches tried ∧ ∀ o' ∈ tried, o'.isInvalid = true) ∧
    ∀ branches : List Rule, (∀ b ∈ branches, b.isBuiltIn = true) → ∀ o h',
      ((Check.oneOf branches).walk options .full route).Returns h o h' →
      ∃ tried, List.Forall₂ (fun b o' => (b.walker options).Tries route (h.view route) o')
        branches tried ∧ (o.isInvalid = true ↔ tried.countP Outcome.passes ≠ 1) := by
  have hconfined : ∀ branches : List Rule, (∀ b ∈ branches, b.isBuiltIn = true) →
      ∀ w ∈ branches.map (Rule.walker options), w.Confined :=
    fun branches hb => List.forall_mem_map.2 fun b hm => fun mode route =>
      Rule.walk_confined options (hb b hm) mode route
  refine ⟨fun rule builtIn o h' real => ?_, fun branches hb o h' real bad => ?_,
    fun branches hb o h' real => ?_⟩
  · have hcopy := (Rule.walk_confined options builtIn .full route).returns_copy inFull real
    exact ⟨hcopy, fun k o₂ h₂ => Walker.Tries.probe ⟨_, hcopy⟩ inFull⟩
  · rw [Check.walk, walkersOf_eq_map] at real
    obtain ⟨tried, htried, hall⟩ := Check.anyOfWalk_tried (hconfined branches hb) inFull real bad
    exact ⟨tried, List.forall₂_map_left_iff.1 htried, hall⟩
  · rw [Check.walk, walkersOf_eq_map] at real
    obtain ⟨tried, htried, hiff⟩ := Check.oneOfWalk_tried (fun w hw => (by cases hw))
      (hconfined branches hb) inFull real
    refine ⟨tried, List.forall₂_map_left_iff.1 htried, ?_⟩
    rw [hiff, List.length_nil, Nat.zero_add]

/-- A rule that fills in a number where nothing is. -/
def fillingRule : Rule := .node "#" [.leaf (.annotations (some (.int 1)) [] {})] {} {}

/-- The rule of the schema that allows no value. -/
def emptyRule : Rule := .node "#" [.leaf .never] {} {}

/-- A default is filled in where an object is to be made first, two branches fail one after the
other, and two branches pass where only one may. -/
theorem probe_predicts_default :
    (∃ o c, (fillingRule.walk {} .full [.key "a"]).Returns (.alone none) o (.alone c) ∧
      c = some (.object [("a", .int 1)]) ∧
      (fillingRule.walk {} .full [.key "a"]).Returns (.copy [.key "a"] none) o
        (.copy [.key "a"] (some (.int 1)))) ∧
    (∃ tried, List.Forall₂ (fun b o' => (Rule.walker {} b).Tries [] none o')
      [emptyRule, emptyRule] tried ∧ ∀ o' ∈ tried, o'.isInvalid = true) ∧
    ∃ tried, List.Forall₂ (fun b o' => (Rule.walker {} b).Tries [] none o')
      [fillingRule, emptyRule, fillingRule] tried ∧ tried.countP Outcome.passes ≠ 1 := by
  have inFull : ∀ route, Host.InFull route (.alone none) := fun _ => trivial
  obtain ⟨hrule, -, -⟩ := probe_predicts {} (inFull [.key "a"])
  obtain ⟨-, hany, hone⟩ := probe_predicts {} (inFull [])
  have hreturns : ∀ {w : Walk} {t c : Tree} {o : Outcome},
      w.detached (fun _ => true) t = .finished o c → w.Returns (.alone t) o (.alone c) := .alone
  refine ⟨?_, ?_, ?_⟩
  · have real := hreturns (w := fillingRule.walk {} .full [.key "a"]) (t := none) rfl
    exact ⟨_, _, real, rfl, (hrule fillingRule rfl _ _ real).1⟩
  · exact hany [emptyRule, emptyRule] (by simp [emptyRule, Rule.isBuiltIn, checksBuiltIn,
      Check.isBuiltIn]) _ _ (hreturns rfl) rfl
  · obtain ⟨tried, htried, hiff⟩ := hone [fillingRule, emptyRule, fillingRule]
      (by simp [fillingRule, emptyRule, Rule.isBuiltIn, checksBuiltIn, Check.isBuiltIn]) _ _
      (hreturns rfl)
    exact ⟨tried, htried, hiff.1 rfl⟩

end Conform
