import Conform.Model.Run

/-!
# Runs under way

A run under way is what is left of its walk at the innermost place, and the visits around it. Every
request of the walk is served in one step, and a run rests only between two steps, so any number of
runs may be under way on one model.

`next?` is that one step, and `drive` takes as many as the open gates allow. `drive_steps` says that
it takes no others.
-/

namespace Conform

/-- A visit under way, with what the walk does after it. -/
inductive Frame where
  | through (next : Outcome → Walk)
  | entered (ticket : Ticket) (hint : Outcome) (next : Outcome → Walk)

structure Active where
  run : Run
  rest : Walk
  /-- The visits under way, the innermost first. -/
  frames : List Frame := []

namespace Active

/-- Begins a visit as the run decides. -/
def beginVisit (p : Progress) (route : Route) (d : Declaration) (hint : Outcome)
    (body : Mode → Walk) (next : Outcome → Walk) (frames : List Frame) : Active × Model :=
  match p.meet route d with
  | (p, .passed) => (⟨p.run, next Outcome.silent, frames⟩, p.model)
  | (p, .through) => (⟨p.run, body .structural, .through next :: frames⟩, p.model)
  | (p, .entered t) => (⟨p.run, body .full, .entered t hint next :: frames⟩, p.model)

/-- Ends the innermost visit with an outcome. -/
def endVisit (p : Progress) (o : Outcome) : List Frame → Option (Active × Model)
  | [] => none
  | .through next :: frames => some (⟨p.run, next Outcome.silent, frames⟩, p.model)
  | .entered t hint next :: frames =>
    let o := Outcome.merge [hint, o]
    let p := p.settle t o
    some (⟨p.run, next o, frames⟩, p.model)

/-- Breaks the innermost visit off. -/
def breakVisit (p : Progress) (e : RuleError) : List Frame → Option (Active × Model)
  | [] => none
  | .through _ :: frames => some (⟨p.run, .fail e, frames⟩, p.model)
  | .entered t _ _ :: frames =>
    let p := p.rollBack t
    some (⟨p.run, .fail e, frames⟩, p.model)

/-- Serves one request, or leaves one visit. There is no next step once the walk is over. -/
def next? (a : Active) (m : Model) : Option (Active × Model) :=
  match a.rest with
  | .done o => endVisit ⟨a.run, m⟩ o a.frames
  | .fail e => breakVisit ⟨a.run, m⟩ e a.frames
  | .read r next => some (⟨a.run, next (m.tree.get? r), a.frames⟩, m)
  | .write r v next =>
    let w := m.write r v
    match w.result with
    | .error e => some (⟨a.run, .fail (.storage e), a.frames⟩, w.model)
    | .ok _ => some (⟨a.run, next, a.frames⟩, w.model)
  | .await _ next => some (⟨a.run, next, a.frames⟩, m)
  | .visit r d hint body next => some (beginVisit ⟨a.run, m⟩ r d hint body next a.frames)

/-- Any number of steps of one run, while nothing else works on the model. -/
inductive Steps : Active × Model → Active × Model → Prop where
  | refl (s) : Steps s s
  | head {s t u} : s.1.next? s.2 = some t → Steps t u → Steps s u

theorem Steps.trans {s t u : Active × Model} (h : Steps s t) (h' : Steps t u) : Steps s u := by
  induction h with
  | refl => exact h'
  | head hs _ ih => exact .head hs (ih h')

end Active

/-- How far a walk came: to its end, to an error, or to a gate that is closed, with which what is
left of the walk begins, and the visits under way. -/
inductive Stop where
  | done (outcome : Outcome) (p : Progress)
  | failed (error : RuleError) (p : Progress)
  | waiting (rest : Walk) (frames : List Frame) (p : Progress)

/-- Serves the requests of a walk as far as the open gates allow. -/
def Walk.drive (isOpen : String → Bool) : Walk → Progress → Stop
  | done o, p => .done o p
  | fail e, p => .failed e p
  | read r next, p => (next (p.model.tree.get? r)).drive isOpen p
  | write r v next, p =>
    let w := p.model.write r v
    match w.result with
    | .error e => .failed (.storage e) ⟨p.run, w.model⟩
    | .ok _ => next.drive isOpen ⟨p.run, w.model⟩
  | await g next, p =>
    if isOpen g then next.drive isOpen p else .waiting (.await g next) [] p
  | visit r d hint body next, p =>
    match p.meet r d with
    | (p, .passed) => (next Outcome.silent).drive isOpen p
    | (p, .through) =>
      match (body .structural).drive isOpen p with
      | .done _ p => (next Outcome.silent).drive isOpen p
      | .failed e p => .failed e p
      | .waiting rest frames p => .waiting rest (frames ++ [.through next]) p
    | (p, .entered t) =>
      match (body .full).drive isOpen p with
      | .done o p =>
        let o := Outcome.merge [hint, o]
        (next o).drive isOpen (p.settle t o)
      | .failed e p => .failed e (p.rollBack t)
      | .waiting rest frames p => .waiting rest (frames ++ [.entered t hint next]) p

/-- Leaves visits under way as far as the open gates allow. -/
def Stop.unwind (isOpen : String → Bool) : List Frame → Stop → Stop
  | [], s => s
  | .through next :: frames, .done _ p =>
    unwind isOpen frames ((next Outcome.silent).drive isOpen p)
  | .entered t hint next :: frames, .done o p =>
    let o := Outcome.merge [hint, o]
    unwind isOpen frames ((next o).drive isOpen (p.settle t o))
  | .through _ :: frames, .failed e p => unwind isOpen frames (.failed e p)
  | .entered t _ _ :: frames, .failed e p => unwind isOpen frames (.failed e (p.rollBack t))
  | frames, .waiting rest inner p => .waiting rest (inner ++ frames) p

/-- The run where it stopped, with the visits around it. -/
def Stop.active (frames : List Frame) : Stop → Active × Model
  | done o p => (⟨p.run, .done o, frames⟩, p.model)
  | failed e p => (⟨p.run, .fail e, frames⟩, p.model)
  | waiting rest inner p => (⟨p.run, rest, inner ++ frames⟩, p.model)

def Active.drive (a : Active) (isOpen : String → Bool) (m : Model) : Stop :=
  Stop.unwind isOpen a.frames (a.rest.drive isOpen ⟨a.run, m⟩)

open Active in
theorem Walk.drive_steps (isOpen : String → Bool) (w : Walk) (p : Progress)
    (frames : List Frame) :
    Steps (⟨p.run, w, frames⟩, p.model) ((w.drive isOpen p).active frames) := by
  induction w generalizing p frames with
  | done o => exact .refl _
  | fail e => exact .refl _
  | read r next ih => exact .head rfl (ih _ p frames)
  | write r v next ih =>
    simp only [drive]
    split
    · exact .head (by simp [next?, *]; rfl) (.refl _)
    · exact .head (by simp [next?, *]) (ih ⟨p.run, _⟩ frames)
  | await g next ih =>
    simp only [drive]
    split
    · exact .head rfl (ih p frames)
    · exact .refl _
  | visit r d hint body next ihb ihn =>
    simp only [drive]
    split
    · next q h => exact .head (by simp [next?, beginVisit, h]) (ihn _ q frames)
    · next q h =>
      refine .head (by simp [next?, beginVisit, h]; rfl) ((ihb .structural q _).trans ?_)
      cases (body .structural).drive isOpen q with
      | done o q => exact .head rfl (ihn _ q frames)
      | failed e q => exact .head rfl (.refl _)
      | waiting rest inner q => simpa [Stop.active] using Steps.refl _
    · next q t h =>
      refine .head (by simp [next?, beginVisit, h]; rfl) ((ihb .full q _).trans ?_)
      cases (body .full).drive isOpen q with
      | done o q => exact .head rfl (ihn _ _ frames)
      | failed e q => exact .head rfl (.refl _)
      | waiting rest inner q => simpa [Stop.active] using Steps.refl _

open Active in
theorem Stop.unwind_steps (isOpen : String → Bool) (frames : List Frame) (s : Stop) :
    Steps (s.active frames) ((s.unwind isOpen frames).active []) := by
  induction frames generalizing s with
  | nil => cases s <;> exact .refl _
  | cons f frames ih =>
    cases s with
    | done o p =>
      cases f with
      | through next => exact .head rfl ((Walk.drive_steps isOpen _ p frames).trans (ih _))
      | entered t hint next => exact .head rfl ((Walk.drive_steps isOpen _ _ frames).trans (ih _))
    | failed e p =>
      cases f with
      | through next => exact .head rfl (ih (.failed e p))
      | entered t hint next => exact .head rfl (ih (.failed e (p.rollBack t)))
    | waiting rest inner p => simpa [unwind, active] using Steps.refl _

/-- Driving a run takes steps of the run and does nothing else. -/
theorem Active.drive_steps (a : Active) (isOpen : String → Bool) (m : Model) :
    Steps (a, m) ((a.drive isOpen m).active []) :=
  (Walk.drive_steps isOpen a.rest ⟨a.run, m⟩ a.frames).trans (Stop.unwind_steps isOpen a.frames _)

end Conform
