import Conform.Proofs.Probe
import Conform.Proofs.Reading
import Conform.Proofs.Refused

/-!
# Hosts as trees

Each host has a tree and a place that its root stands for: all of the data alone and in a run, the
value that was copied for a copy. What the host serves it reads from the tree, and a write that asks
for a change is a write to the tree.
-/

namespace Conform

namespace Tree

variable {t : Tree} {r q : Route} {v : Value}

/-- Where a value is, another one can be written. -/
theorem set_accepted (h : t.get? r = some v) (w : Value) : (set t r (some w)).refusal = none := by
  rw [set_refusal_eq t r w v, set_get?_self h]

/-- Written over, a value leaves all places beside it as they were. No array gains a slot, since the
old value can be written back and then none has. -/
theorem get?_set_over {w : Value} (h : t.get? r = some v) (apart : r.Apart q) :
    (set t r (some w)).result.get? q = t.get? q := by
  rcases get?_set_beside apart (some w) with hsame | gains
  · exact hsame
  · have hnull : (set (set t r (some w)).result r (some v)).result.get? q = some .null :=
      get?_set_apart apart gains.null
    rw [set_set, set_get?_self h, gains.undefined] at hnull
    cases hnull

end Tree

namespace Host

/-- The place that the root of the tree stands for. -/
def base : Host → Route
  | alone _ => []
  | run _ => []
  | copy base _ => base

def tree : Host → Tree
  | alone t => t
  | run p => p.model.tree
  | copy _ t => t

/-- The host after a write. -/
def put (r : Route) (value : Option Value) : Host → Host
  | alone t => alone (Tree.set t r value).result
  | run p => run ⟨p.run, (p.model.write r value).model⟩
  | copy base t =>
    match Route.below? base r with
    | some q => copy base (Tree.set t q value).result
    | none => copy base t

variable {h : Host} {route q : Route} {v w : Value} {value : Option Value}

theorem view_eq (h : Host) (r : Route) : h.view r = (Route.below? h.base r).bind h.tree.get? := by
  cases h <;> rfl

theorem view_append (h : Host) (q : Route) : h.view (h.base ++ q) = h.tree.get? q := by
  rw [view_eq, Route.below?_append, Option.bind_some]

theorem exists_of_view (served : h.view route = some v) :
    ∃ q, route = h.base ++ q ∧ h.tree.get? q = some v := by
  rw [view_eq, Option.bind_eq_some_iff] at served
  obtain ⟨q, hq, hv⟩ := served
  exact ⟨q, Route.eq_append_of_below? hq, hv⟩

theorem serves_append (h : Host) (q : Route) : h.Serves (h.base ++ q) := by
  cases h with
  | alone t => trivial
  | run p => trivial
  | copy base t => exact List.prefix_append base q

theorem serves_of_view (served : h.view route = some v) : h.Serves route := by
  obtain ⟨q, rfl, -⟩ := exists_of_view served
  exact h.serves_append q

@[simp] theorem base_put (h : Host) (r : Route) (value : Option Value) :
    (h.put r value).base = h.base := by
  cases h with
  | alone t => rfl
  | run p => rfl
  | copy base t =>
    rw [put]
    split <;> rfl

/-- A write that asks for a change. A run would leave out any other. -/
theorem tree_put (new : sameValue? (h.tree.get? q) value = false) :
    (h.put (h.base ++ q) value).tree = (Tree.set h.tree q value).result := by
  cases h with
  | alone t => rfl
  | run p => exact Model.write_new_tree new
  | copy base t =>
    rw [put, Host.base, Route.below?_append]
    rfl

/-- Whether a host is another one with a value written at a place of its tree. -/
structure Over (h : Host) (q : Route) (w : Value) (h' : Host) : Prop where
  base : h'.base = h.base
  tree : h'.tree = (Tree.set h.tree q (some w)).result

namespace Over

variable {h h' h'' : Host} {r q : Route} {v w : Value}

theorem refl (hv : h.tree.get? q = some v) : h.Over q v h :=
  ⟨rfl, by rw [Tree.set_get?_self hv]⟩

theorem trans (first : h.Over q v h') (second : h'.Over q w h'') : h.Over q w h'' where
  base := second.base.trans first.base
  tree := by rw [second.tree, first.tree, Tree.set_set]

theorem get?_self (hover : h.Over q w h') (hv : h.tree.get? q = some v) :
    h'.tree.get? q = some w := by
  rw [hover.tree]
  exact Tree.get?_set_self (Tree.set_accepted hv w)

theorem view_self (hover : h.Over q w h') (hv : h.tree.get? q = some v) :
    h'.view (h.base ++ q) = some w := by
  rw [← hover.base, view_append]
  exact hover.get?_self hv

theorem view_apart (hover : h.Over q w h') (hv : h.tree.get? q = some v)
    (apart : (h.base ++ q).Apart r) : h'.view r = h.view r := by
  rw [view_eq, view_eq, hover.base]
  cases hr : Route.below? h.base r with
  | none => rfl
  | some q' =>
    rw [Route.eq_append_of_below? hr, Route.apart_append_left] at apart
    rw [Option.bind_some, Option.bind_some, hover.tree, Tree.get?_set_over hv apart]

/-- The old value can be written back. -/
theorem back (hover : h.Over q w h') (hv : h.tree.get? q = some v) :
    (Tree.set h'.tree q (some v)).result = h.tree := by
  rw [hover.tree, Tree.set_set, Tree.set_get?_self hv]

end Over

theorem over_put (new : sameValue? (h.tree.get? q) (some w) = false) :
    h.Over q w (h.put (h.base ++ q) (some w)) :=
  ⟨h.base_put _ _, tree_put new⟩

/-- Another value that is written at a place where one is stands there afterwards. -/
theorem view_put (served : h.view route = some v) (new : v.same w = false) :
    (h.put route (some w)).view route = some w := by
  obtain ⟨q, rfl, hv⟩ := exists_of_view served
  have hover := h.over_put (q := q) (w := w) (by rwa [hv])
  exact hover.view_self hv

end Host

namespace Walk

variable {h h' : Host} {o : Outcome} {route q : Route} {v w : Value} {value : Option Value}
  {next : Walk}

/-- A write that asks for a change and is not refused. -/
theorem returns_put_iff (new : sameValue? (h.tree.get? q) value = false)
    (accepted : (Tree.set h.tree q value).refusal = none) :
    (write (h.base ++ q) value next).Returns h o h' ↔
      next.Returns (h.put (h.base ++ q) value) o h' := by
  cases h with
  | alone t =>
    refine returns_alone_congr fun isOpen => ?_
    have accepted : (Tree.set t q value).refusal = none := accepted
    simp only [Host.base, List.nil_append, detached, accepted]
  | run p =>
    refine returns_run_congr fun isOpen => ?_
    simp only [Host.base, List.nil_append, drive, (Model.write_done new accepted).1]
  | copy base t =>
    simp only [Host.put, Host.base, Route.below?_append]
    exact returns_copy_congr fun k => shield_write accepted next k

/-- Another value that is written at a place where one is. -/
theorem returns_write_iff (served : h.view route = some v) (new : v.same w = false) :
    (write route (some w) next).Returns h o h' ↔ next.Returns (h.put route (some w)) o h' := by
  obtain ⟨q, rfl, hv⟩ := Host.exists_of_view served
  exact returns_put_iff (by rwa [hv]) (Tree.set_accepted hv w)

end Walk

end Conform
