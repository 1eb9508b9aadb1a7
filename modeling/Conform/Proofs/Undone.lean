import Conform.Proofs.Alone
import Conform.Proofs.Descent
import Conform.Proofs.Dirty
import Conform.Proofs.Safe
import Conform.Proofs.Spelling

/-!
# What a failed run undoes

A visit that commits notes the state that it finds, and then marks its place. An error breaks off
all the visits under way, the innermost first, and each of them puts back what it has noted, if the
record is still the run's own. In a run that no other overlaps it always is: over a path stand the
marks of the visits under way there, each of which has found the one before, and the first one has
found a state that is no mark. So what the first one has found stands there in the end.

That is the state that each visit has found of its own place, unless it lies within another visit of
the same path. Keywords that visit children only do not come to a path again while they are at work
there, but for the place under the empty key of the root, which has the path of the root.
-/

namespace Conform

/-- Whether the visit marks a path as one that the run is at work in. -/
def Ticket.marks (t : Ticket) (path : String) : Bool := t.commits && t.route.text == path

theorem Ticket.marks_iff {t : Ticket} {path : String} :
    t.marks path = true ↔ t.commits = true ∧ t.route.text = path := by
  simp [marks]

/-- Under each mark of run `n` lies the one before, and under the first one a state that is none. -/
def Restores (n : Nat) : List Ticket → State → Prop
  | [], s => s.status ≠ .validating
  | t :: ts, s => s.valLock = n ∧ Restores n ts t.previous

/-- The state that is left of a state when the marks are taken back. -/
def undone : List Ticket → State → State
  | [], s => s
  | t :: ts, _ => undone ts t.previous

theorem undone_concat (ts : List Ticket) (t : Ticket) (s : State) :
    undone (ts ++ [t]) s = t.previous := by
  induction ts generalizing s with
  | nil => rfl
  | cons u ts ih => exact ih u.previous

namespace Active

variable {a a' : Active} {m m' : Model} {path : String}

/-- The visits under way that mark a path, the innermost first. -/
def marksAt (a : Active) (path : String) : List Ticket := a.tickets.filter (·.marks path)

theorem marksAt_of_cons {t : Ticket} (h : a.tickets = t :: a'.tickets) (path : String) :
    a.marksAt path = if t.marks path = true then t :: a'.marksAt path else a'.marksAt path := by
  rw [marksAt, h, List.filter_cons]
  rfl

/-- What lies under the marks of a path is what the outermost visit that marks it has found. -/
theorem undone_marksAt {inner outer : List Ticket} {t : Ticket}
    (ht : a.tickets = inner ++ t :: outer) (commits : t.commits = true)
    (alone : ∀ u ∈ outer, u.route.text ≠ t.route.text) (s : State) :
    undone (a.marksAt t.route.text) s = t.previous := by
  have hmark : t.marks t.route.text = true := Ticket.marks_iff.2 ⟨commits, rfl⟩
  have hnone : outer.filter (·.marks t.route.text) = [] :=
    List.filter_eq_nil_iff.2 fun u hu hm => alone u hu (Ticket.marks_iff.1 hm).2
  rw [marksAt, ht, List.filter_append, List.filter_cons, if_pos hmark, hnone]
  exact undone_concat _ t s

/-- What one step of a run does to the marks over a path and to the state on top of them. -/
inductive Turn (a : Active) : List Ticket → State → List Ticket → State → Prop where
  | same (ts : List Ticket) (s : State) : Turn a ts s ts s
  | marked (t : Ticket) (ts : List Ticket) (sound : a.failing = false) :
      Turn a ts t.previous (t :: ts) (Progress.working a.run.ordinal t.previous)
  | settled (t : Ticket) (ts : List Ticket) (s s' : State) (stamp : s'.valLock = a.run.ordinal)
      (status : s'.status ≠ .validating) (sound : a.failing = false) : Turn a (t :: ts) s ts s'
  | restored (t : Ticket) (ts : List Ticket) (s : State) : Turn a (t :: ts) s ts t.previous

theorem Turn.restores {ts ts' : List Ticket} {s s' : State} (h : Turn a ts s ts' s')
    (hs : Restores a.run.ordinal ts s) : Restores a.run.ordinal ts' s' := by
  cases h with
  | same => exact hs
  | marked => exact ⟨rfl, hs⟩
  | settled _ _ _ _ stamp status =>
    cases ts' with
    | nil => exact status
    | cons u ts => exact ⟨stamp, hs.2.2⟩
  | restored => exact hs.2

/-- A run that is on its way out does nothing but take back its marks. -/
theorem Turn.undone {ts ts' : List Ticket} {s s' : State} (h : Turn a ts s ts' s')
    (failing : a.failing = true) : undone ts' s' = undone ts s := by
  cases h with
  | same => rfl
  | marked _ _ sound => rw [sound] at failing; cases failing
  | settled _ _ _ _ _ _ sound => rw [sound] at failing; cases failing
  | restored => rfl

/-- A visit that does not mark a path leaves the state there as it is. -/
theorem Effect.entry_state_of_unmarked {act : Act} (h : Effect a m act a' m')
    (unmarked : ∀ t ∈ act.ticket?, t.marks path = false) :
    (m'.entry path).state = (m.entry path).state := by
  have hno : ∀ t ∈ act.ticket?, t.commits = true → t.route.text ≠ path := by
    intro t ht hc hp
    have hmarks := Ticket.marks_iff.2 ⟨hc, hp⟩
    rw [unmarked t ht] at hmarks
    cases hmarks
  rw [Model.entry_state, Model.entry_state]
  cases h.change path with
  | same same => rw [same]
  | made before after => rw [before, after]; rfl
  | marked _ _ _ _ commits at_ => exact absurd at_ (hno _ rfl commits)
  | settled _ _ _ _ _ commits at_ => exact absurd at_ (hno _ rfl commits)
  | restored _ _ _ commits at_ => exact absurd at_ (hno _ rfl commits)

theorem Effect.marksAt_of_unmarked {act : Act} (h : Effect a m act a' m')
    (unmarked : ∀ t ∈ act.ticket?, t.marks path = false) : a'.marksAt path = a.marksAt path := by
  have hcons : ∀ {b c : Active} {t : Ticket}, b.tickets = t :: c.tickets →
      t.marks path = false → b.marksAt path = c.marksAt path := by
    intro b c t hb ht
    rw [marksAt_of_cons hb, if_neg (Bool.eq_false_iff.1 ht)]
  cases h with
  | quiet _ tickets => rw [marksAt, marksAt, tickets]
  | entered t _ _ _ _ tickets => exact hcons tickets (unmarked t rfl)
  | settled t _ _ tickets => exact (hcons tickets (unmarked t rfl)).symm
  | rolledBack t _ tickets => exact (hcons tickets (unmarked t rfl)).symm

namespace Sole

theorem valLock_le (h : a.Sole m) (path : String) :
    (m.entry path).state.valLock ≤ a.run.ordinal := by
  rw [Model.entry_state]
  exact Model.valLock_le_of_record (h.foremost.newest path)

/-- A visit begins with the state on record, and from then on there is a record. -/
theorem entered {t : Ticket} (h : a.Sole m) (hef : Effect a m (.entered t) a' m') :
    t.commits = Progress.commitsAt ⟨a.run, m⟩ t.route.text ∧ t.previous = m.state t.route ∧
      (m'.state? t.route.text).isSome = true := by
  cases hef with
  | entered _ r d scope enter =>
    have hopen : (⟨a.run.discover r d, m⟩ : Progress).model.records.superseded r.text
        (a.run.discover r d).ordinal = false := by
      rw [Run.discover_ordinal]
      exact h.foremost.open_ r.text
    have hcommits := Progress.enter_commits ⟨a.run.discover r d, m⟩ r scope
    obtain ⟨commits, -, ht, hs⟩ := Progress.enter_found ⟨a.run.discover r d, m⟩ r scope hopen
    rw [enter] at hcommits ht hs
    rw [hopen] at hcommits
    have ht : t = ⟨r, commits, (m.state? r.text).getD {}⟩ := ht
    subst ht
    refine ⟨?_, (m.entry_state _).symm, ?_⟩
    · simpa [Progress.commitsAt] using hcommits
    · rw [hs, if_pos rfl]
      rfl

/-- A state with the stamp of the run is on record. -/
theorem own_record (h : a.Sole m) (own : (m.entry path).state.valLock = a.run.ordinal) :
    ∃ st, m.state? path = some st ∧ st.valLock = a.run.ordinal := by
  have hpos : 0 < a.run.ordinal := h.numbered.ordinal_pos a List.mem_cons_self
  rw [Model.entry_state] at own
  cases hst : m.state? path with
  | none =>
    rw [hst] at own
    exact absurd own (Nat.ne_of_lt hpos)
  | some st =>
    rw [hst] at own
    exact ⟨st, rfl, own⟩

/-- Each step of a run that is alone is one of the four turns at every path. -/
theorem turn (h : a.Sole m) (hn : a.next? m = some (a', m')) (path : String)
    (restores : Restores a.run.ordinal (a.marksAt path) (m.entry path).state) :
    Turn a (a.marksAt path) (m.entry path).state (a'.marksAt path) (m'.entry path).state := by
  have hef := effect hn
  generalize a.act m = act at hef
  by_cases unmarked : ∀ t ∈ act.ticket?, t.marks path = false
  · rw [hef.entry_state_of_unmarked unmarked, hef.marksAt_of_unmarked unmarked]
    exact .same _ _
  · obtain ⟨t, hact, hmark⟩ : ∃ t ∈ act.ticket?, t.marks path = true := by simpa using unmarked
    obtain ⟨hc, rfl⟩ := Ticket.marks_iff.1 hmark
    have hopen := h.foremost.open_ t.route.text
    cases hef with
    | quiet => cases hact
    | entered _ r d scope enter tickets sound =>
      cases hact
      have hef := Effect.entered t r d scope enter tickets sound
      have hprevious : t.previous = (m.entry t.route.text).state := (h.entered hef).2.1
      have hstate := (hef.entered_found hc).2.2 (hprevious ▸ h.valLock_le _)
      rw [marksAt_of_cons tickets, if_pos hmark, ← hprevious, m'.entry_state, hstate]
      exact .marked t _ sound
    | settled _ o settle tickets sound =>
      cases hact
      have hstate := (Effect.settled t o settle tickets sound).settled_state? hc
        (h.foremost.newest.mayCommit hopen)
      rw [marksAt_of_cons tickets, if_pos hmark, m'.entry_state, hstate]
      refine .settled t _ _ _ rfl ?_ sound
      rw [Option.getD_some, Progress.settlement_status]
      split <;> decide
    | rolledBack _ rollBack tickets failing =>
      cases hact
      rw [marksAt_of_cons tickets, if_pos hmark] at restores ⊢
      have hstate := Progress.rollBack_state? ⟨a.run, m⟩ t t.route.text
      rw [rollBack, if_pos ⟨hc, rfl, h.own_record restores.1⟩] at hstate
      rw [m'.entry_state, show m'.state? t.route.text = _ from hstate]
      exact .restored t _ _

end Sole

/-- Whether the run can take its marks back at every path. -/
def Reversible (a : Active) (m : Model) : Prop :=
  ∀ path, Restores a.run.ordinal (a.marksAt path) (m.entry path).state

namespace Alone

variable {s u : Active × Model}

theorem reversible (h : Alone s u) (sole : s.1.Sole s.2) (start : s.1.Reversible s.2) :
    u.1.Reversible u.2 := by
  induction h with
  | refl => exact start
  | @step t u before next ih =>
    intro path
    rw [(effect next).ordinal]
    exact ((before.sole sole).turn next path (ih path)).restores (ih path)
  | used _ used ih =>
    intro path
    rw [Model.entry_state_of_states (used.states.states path)]
    exact ih path

theorem undone (h : Alone s u) (sole : s.1.Sole s.2) (start : s.1.Reversible s.2)
    (failing : s.1.failing = true) (path : String) :
    undone (u.1.marksAt path) (u.2.entry path).state =
      undone (s.1.marksAt path) (s.2.entry path).state := by
  induction h with
  | refl => rfl
  | @step t u before next ih =>
    rw [← ih]
    exact ((before.sole sole).turn next path (before.reversible sole start path)).undone
      (before.failing failing)
  | used _ used ih =>
    rw [Model.entry_state_of_states (used.states.states path)]
    exact ih

end Alone

end Active

namespace Active

section

variable {a a' : Active} {m m' : Model} {path : String}

/-- No visit under way is to commit where the run does not. -/
def Entitled (a : Active) (m : Model) : Prop :=
  ∀ t ∈ a.tickets, t.commits = true → Progress.commitsAt ⟨a.run, m⟩ t.route.text = true

theorem next?_commitsAt (hn : a.next? m = some (a', m')) (path : String) :
    Progress.commitsAt ⟨a'.run, m'⟩ path = Progress.commitsAt ⟨a.run, m⟩ path := by
  rw [Progress.commitsAt, Progress.commitsAt, (effect hn).options, next?_dirty hn]

theorem Sole.entitled (h : a.Sole m) (he : a.Entitled m) (hn : a.next? m = some (a', m')) :
    a'.Entitled m' := by
  intro t ht hc
  rw [next?_commitsAt hn]
  rcases (effect hn).mem_tickets ht with ht | ⟨hact, -⟩
  · exact he t ht hc
  · exact (h.entered (hact ▸ effect hn)).1.symm.trans hc

/-- Where the run does not commit, a step leaves the state as it is. -/
theorem Sole.entry_state (h : a.Sole m) (he : a.Entitled m) (hn : a.next? m = some (a', m'))
    (idle : Progress.commitsAt ⟨a.run, m⟩ path = false) :
    (m'.entry path).state = (m.entry path).state := by
  have hef := effect hn
  have hno : ∀ t : Ticket, (t.commits = true → Progress.commitsAt ⟨a.run, m⟩ t.route.text = true) →
      t.marks path = false := by
    intro t ht
    rw [Bool.eq_false_iff, ne_eq, Ticket.marks_iff]
    rintro ⟨hc, rfl⟩
    rw [ht hc] at idle
    cases idle
  generalize a.act m = act at hef
  refine hef.entry_state_of_unmarked fun t ht => hno t fun hc => ?_
  cases hef with
  | quiet => cases ht
  | entered t' r d scope enter tickets sound =>
    cases ht
    exact (h.entered (.entered t r d scope enter tickets sound)).1.symm.trans hc
  | settled t' o settle tickets =>
    cases ht
    exact he t (tickets ▸ List.mem_cons_self) hc
  | rolledBack t' rollBack tickets =>
    cases ht
    exact he t (tickets ▸ List.mem_cons_self) hc

end

namespace Steps

variable {s u : Active × Model}

theorem entitled (h : Steps s u) (sole : s.1.Sole s.2) (he : s.1.Entitled s.2) :
    u.1.Entitled u.2 := by
  induction h with
  | refl => exact he
  | head hn _ ih => exact ih (sole.next hn) (sole.entitled he hn)

theorem entry_state (h : Steps s u) (sole : s.1.Sole s.2) (he : s.1.Entitled s.2) {path : String}
    (idle : Progress.commitsAt ⟨s.1.run, s.2⟩ path = false) :
    (u.2.entry path).state = (s.2.entry path).state := by
  induction h with
  | refl => rfl
  | head hn _ ih =>
    refine (ih (sole.next hn) (sole.entitled he hn) ?_).trans (sole.entry_state he hn idle)
    rw [next?_commitsAt hn]
    exact idle

end Steps

/-- The run begins a visit, which may still be under way at a later moment. -/
structure Begins (a : Active) (m : Model) (t : Ticket) (u : Active × Model) : Prop where
  act : a.act m = .entered t
  later : Steps (a, m) u
  commits : t.commits = Progress.commitsAt ⟨a.run, m⟩ t.route.text
  found : t.previous = m.state t.route
  known : (u.2.state? t.route.text).isSome = true

/-- A visit that is under way later on is under way now or begins in between. -/
theorem Steps.begins {s u : Active × Model} (h : Steps s u) (sole : s.1.Sole s.2) {t : Ticket}
    (ht : t ∈ u.1.tickets) : t ∈ s.1.tickets ∨ ∃ a m, Steps s (a, m) ∧ Begins a m t u := by
  induction h with
  | refl => exact .inl ht
  | @head s v u hn later ih =>
    rcases ih (sole.next hn) ht with hv | ⟨a, m, before, hb⟩
    · rcases (effect hn).mem_tickets hv with hs | ⟨hact, -⟩
      · exact .inl hs
      · obtain ⟨commits, found, known⟩ := sole.entered (hact ▸ effect hn)
        exact .inr ⟨s.1, s.2, .refl _, hact, .head hn later, commits, found,
          (Alone.of_steps later).isSome known⟩
    · exact .inr ⟨a, m, .head hn before, hb⟩

/-- A visit begins with the state on record. -/
theorem Sole.found {a₀ a : Active} {m₀ k : Model} {t : Ticket} (sole : a₀.Sole m₀)
    (act : a₀.act m₀ = .entered t) (later : Steps (a₀, m₀) (a, k)) (failing : a.failing = true) :
    t.previous = m₀.state t.route := by
  cases later with
  | refl =>
    obtain ⟨run, rest, frames⟩ := a₀
    cases rest with
    | fail e =>
      -- on its way out a run enters no place
      cases frames with
      | nil => cases act
      | cons f frames => cases f <;> cases act
    | _ => cases failing
  | head hn _ => exact (sole.entered (act ▸ effect hn)).2.1

/-- A visit that is under way when the run meets an error has left the state that it found, unless
it lies within another one at the same path. -/
theorem Begins.restored {s : Active × Model} (sole : s.1.Sole s.2) (start : s.1.Reversible s.2)
    (entitled : s.1.Entitled s.2) {a₀ a b : Active} {m₀ k m : Model} {t : Ticket}
    (before : Steps s (a₀, m₀)) (begins : Begins a₀ m₀ t (a, k)) (failing : a.failing = true)
    {inner outer : List Ticket} (ht : a.tickets = inner ++ t :: outer)
    (alone : ∀ u ∈ outer, u.route.text ≠ t.route.text) (later : Steps (a, k) (b, m))
    (left : b.tickets = []) : m.state? t.route.text = some (m₀.state t.route) := by
  have hsole := (Alone.of_steps before).sole sole
  have hlater := Alone.of_steps later
  have hstate : (m.entry t.route.text).state = m₀.state t.route := by
    cases hc : t.commits with
    | false =>
      -- the run commits at this path at no time
      exact (begins.later.trans later).entry_state hsole (before.entitled sole entitled)
        (begins.commits.symm.trans hc)
    | true =>
      have hreached := Alone.of_steps (before.trans begins.later)
      have hundone := hlater.undone (hreached.sole sole) (hreached.reversible sole start) failing
        t.route.text
      rw [undone_marksAt ht hc alone, begins.found, marksAt, left] at hundone
      exact hundone
  obtain ⟨st, hst⟩ := Option.isSome_iff_exists.1 (hlater.isSome begins.known)
  rw [Model.entry_state, hst] at hstate
  rw [hst]
  exact congrArg some hstate

end Active

/-- Of a place and one below, the paths differ, unless the one below is that of the empty key. -/
theorem Route.text_ne_of_prefix {q r : Route} (below : q <+: r) (hne : q ≠ r)
    (named : r ≠ unnamed) : q.text ≠ r.text := by
  intro htext
  have hr : r ≠ [] := by
    rintro rfl
    exact hne (List.prefix_nil.1 below)
  have hchars := congrArg String.toList htext
  rw [toList_text hr] at hchars
  by_cases hq : q = []
  · subst hq
    cases r with
    | nil => exact hr rfl
    | cons s r =>
      obtain ⟨hs, hr⟩ := List.append_eq_nil_iff.1 (List.cons.inj hchars).2.symm
      cases r with
      | cons => cases hr
      | nil =>
        cases s with
        | index i =>
          have hdigits := Segment.decimal?_toString i
          rw [show (toString i).toList = [] from hs] at hdigits
          cases hdigits
        | key k =>
          refine named (congrArg (fun k => [Segment.key k]) ?_)
          exact String.toList_inj.1 hs
  · obtain ⟨x, rfl⟩ := below
    rw [toList_text hq, chars_append, List.self_eq_append_right] at hchars
    cases x with
    | nil => exact hne (List.append_nil q).symm
    | cons => cases hchars

namespace Active

/-- The frames around the walk at a place, each at the parent of the one within, up to the root. -/
inductive Around : Route → List Frame → Prop where
  | root {f : Frame} (at_ : ∀ t ∈ f.ticket?, t.route = []) (last : f.next = .done) : Around [] [f]
  | child {place : Route} {s : Segment} {f : Frame} {fs : List Frame}
      (at_ : ∀ t ∈ f.ticket?, t.route = place.child s)
      (next : ∀ o, (f.next o).Descends Route.IsParent place) (outer : Around place fs) :
      Around (place.child s) (f :: fs)

/-- Whether what is left of a run visits children only, beginning with the visit of the root. -/
inductive Strung : Active → Prop where
  | begun {run : Run} {d : Declaration} {hint : Outcome} {body : Mode → Walk}
      (within : ∀ mode, (body mode).Descends Route.IsParent []) :
      Strung ⟨run, .visit [] d hint body .done, []⟩
  | within {run : Run} {w : Walk} {frames : List Frame} {place : Route}
      (rest : w.Descends Route.IsParent place) (around : Around place frames) :
      Strung ⟨run, w, frames⟩
  | over {run : Run} {o : Outcome} : Strung ⟨run, .done o, []⟩
  | broken {run : Run} {e : RuleError} : Strung ⟨run, .fail e, []⟩

namespace Around

variable {place : Route} {f : Frame} {fs : List Frame}

theorem left (h : Around place (f :: fs)) (run : Run) (o : Outcome) :
    Strung ⟨run, f.next o, fs⟩ := by
  cases h with
  | root _ last =>
    rw [last]
    exact .over
  | child _ next outer => exact .within (next o) outer

theorem broken (h : Around place (f :: fs)) (run : Run) (e : RuleError) :
    Strung ⟨run, .fail e, fs⟩ := by
  cases h with
  | root => exact .broken
  | child _ _ outer => exact .within trivial outer

/-- The visits under way lie below each other. -/
theorem tickets (h : Around place fs) :
    (fs.filterMap Frame.ticket?).Pairwise (fun t u => u.route <+: t.route ∧ u.route ≠ t.route) ∧
      ∀ t ∈ fs.filterMap Frame.ticket?, t.route <+: place := by
  induction h with
  | @root f at_ =>
    cases hf : f.ticket? with
    | none => simp [hf]
    | some t => simp [hf, at_ t hf]
  | @child place s f fs at_ _ _ ih =>
    have hbelow : place <+: place.child s := List.prefix_append place [s]
    cases hf : f.ticket? with
    | none =>
      rw [List.filterMap_cons_none hf]
      exact ⟨ih.1, fun t ht => (ih.2 t ht).trans hbelow⟩
    | some t =>
      rw [List.filterMap_cons_some hf, List.pairwise_cons, List.forall_mem_cons, at_ t hf]
      refine ⟨⟨fun u hu => ⟨(ih.2 u hu).trans hbelow, fun he => ?_⟩, ih.1⟩, List.prefix_rfl,
        fun u hu => (ih.2 u hu).trans hbelow⟩
      have hlength := (ih.2 u hu).length_le
      rw [he, Route.child, List.length_append, List.length_singleton] at hlength
      omega

end Around

namespace Strung

variable {a a' : Active} {m m' : Model}

theorem next (h : a.Strung) (hn : a.next? m = some (a', m')) : a'.Strung := by
  cases moved hn with
  | ended =>
    cases h with
    | within _ around => exact around.left _ _
  | settled settle =>
    cases h with
    | within _ around => exact around.left _ _
  | broken =>
    cases h with
    | within _ around => exact around.broken _ _
  | rolledBack rollBack =>
    cases h with
    | within _ around => exact around.broken _ _
  | read =>
    cases h with
    | within rest around => exact .within (rest _) around
  | refused error =>
    cases h with
    | within _ around => exact .within trivial around
  | written ok =>
    cases h with
    | within rest around => exact .within rest around
  | resumed =>
    cases h with
    | within rest around => exact .within rest around
  | passed meet =>
    cases h with
    | begun => exact .over
    | within rest around => exact .within (rest.2.2 _) around
  | through meet =>
    cases h with
    | begun within => exact .within (within _) (.root (fun t ht => nomatch ht) rfl)
    | within rest around =>
      obtain ⟨⟨s, rfl⟩, hbody, hnext⟩ := rest
      exact .within (hbody _) (.child (fun t ht => nomatch ht) hnext around)
  | @entered run r d hint body next frames scope t p meet enter =>
    have hroute : t.route = r := by
      rw [← Progress.enter_route ⟨run.discover r d, m⟩ r scope, enter]
    have hat : ∀ u ∈ (Frame.entered t hint next).ticket?, u.route = r :=
      fun u hu => Option.some.inj hu ▸ hroute
    cases h with
    | begun within => exact .within (within _) (.root hat rfl)
    | within rest around =>
      obtain ⟨⟨s, rfl⟩, hbody, hnext⟩ := rest
      exact .within (hbody _) (.child hat hnext around)

theorem steps {s u : Active × Model} (h : s.1.Strung) (hs : Steps s u) : u.1.Strung := by
  induction hs with
  | refl => exact h
  | head hn _ ih => exact ih (h.next hn)

/-- The places around a visit have other paths than its own. -/
theorem text_ne (h : a.Strung) {inner outer : List Ticket} {t : Ticket}
    (ht : a.tickets = inner ++ t :: outer) (named : t.route ≠ Route.unnamed) :
    ∀ u ∈ outer, u.route.text ≠ t.route.text := by
  have hbelow : a.tickets.Pairwise fun t u => u.route <+: t.route ∧ u.route ≠ t.route := by
    cases h with
    | within _ around => exact around.tickets.1
    | _ => exact .nil
  rw [ht, List.pairwise_append, List.pairwise_cons] at hbelow
  intro u hu
  obtain ⟨below, hne⟩ := hbelow.2.1.1 u hu
  exact Route.text_ne_of_prefix below hne named

end Strung

end Active

section

variable (c : Call) {m : Model} (r : Route) (options : ValidateOptions)

theorem Call.start_reversible (unmarked : ∀ path, (m.entry path).state.status ≠ .validating) :
    (c.start m r options).1.Reversible (c.start m r options).2 := by
  intro path
  have hstate := Model.entry_state_of_states (c.start_states m r options path)
  rw [Active.marksAt, c.start_tickets, hstate]
  exact unmarked path

theorem Call.start_strung
    (descends : ∀ o, Walk.DescendsAnywhere Route.IsParent (m.rule.walk o)) :
    (c.start m r options).1.Strung := by
  obtain ⟨o, hrest, hframes⟩ := c.start_rest m r options
  generalize (c.start m r options).1 = a at hrest hframes
  obtain ⟨run, rest, frames⟩ := a
  cases hrest
  cases hframes
  exact .begun fun mode => descends o mode []

theorem Call.start_verdicts : (c.start m r options).2.verdicts = m.verdicts := by
  cases c <;> rfl

def RunResult.isFailed : RunResult → Bool
  | failed _ => true
  | _ => false

theorem RunResult.eq_of_isFailed {r : RunResult} (h : r.isFailed = true) : ∃ e, r = .failed e := by
  cases r with
  | failed e => exact ⟨e, rfl⟩
  | _ => cases h

/-- A call that is answered with an error is the start of a run and steps of it to that error. -/
theorem Call.steps_of_failed {isOpen : String → Bool} {m' : Model} {e : RuleError}
    (h : c.answer m r options isOpen = (m', .failed e)) :
    ∃ run, Active.Steps (c.start m r options) (⟨run, .fail e, []⟩, m') := by
  rw [c.answer_eq, Active.resume] at h
  have hsteps := (c.start m r options).1.drive_steps isOpen (c.start m r options).2
  generalize (c.start m r options).1.drive isOpen (c.start m r options).2 = stop at h hsteps
  cases stop with
  | done o p => cases h
  | waiting rest frames p => cases h
  | failed e p =>
    cases h
    exact ⟨p.run, hsteps⟩

end

namespace Sequential

variable {registry : Registry} {schema : Value} {rule : Rule} {data : Tree} {config : ModelConfig}
  {m : Model}

/-- Where one run follows the other, no mark is left behind. -/
theorem unmarked (h : Sequential rule data config m) :
    ∀ path, (m.entry path).state.status ≠ .validating := by
  induction h with
  | fresh => exact fun path h => nomatch h
  | used _ used ih =>
    intro path
    rw [Model.entry_state_of_states (used.states.states path)]
    exact ih path
  | @returned m m' c r options run o before steps ih =>
    intro path
    have hend := steps.reversible (before.sole c r options) (c.start_reversible r options ih) path
    rw [Model.entry_state, Progress.finish_state?]
    rw [Model.entry_state] at hend
    cases hst : m'.state? path with
    | none => exact fun h => nomatch h
    | some st =>
      rw [hst] at hend
      rw [Option.filter_some]
      split
      · exact hend
      · exact fun h => nomatch h
  | @failed m m' c r options run e before steps ih =>
    exact steps.reversible (before.sole c r options) (c.start_reversible r options ih)

/-- **A failed run undoes the chain it was in.** Let runs have followed each other, each of which
has returned or failed, whatever the caller has done besides, and let a run by itself end with an
error, wherever a keyword has met it. Then no record is marked as validating, no record has gone,
and no verdict has been told of. And each visit that was under way when the error was met has left
the state that it found when it began, whether it commits or not, unless it lay within another visit
of the same path. Where the keywords from outside visit children only, no visit does so, but for one
under the empty key of the root. -/
theorem failure_undoes (compiled : compile registry schema = .ok rule)
    (sequential : Sequential rule data config m) (c : Call) (r : Route) (options : ValidateOptions)
    {run : Run} {e : RuleError} {m' : Model}
    (failed : Active.Steps (c.start m r options) (⟨run, .fail e, []⟩, m')) :
    (∀ path st, m'.state? path = some st → st.status ≠ .validating) ∧
    (∀ path ∈ m.records.paths, path ∈ m'.records.paths) ∧
    m'.verdicts = m.verdicts ∧
    ∀ a k, Active.Steps (c.start m r options) (a, k) → a.failing = true →
      ∀ inner t outer, a.tickets = inner ++ t :: outer →
        (∀ u ∈ outer, u.route.text ≠ t.route.text) ∨
          (∀ k ∈ registry.keywords, ∀ payload run, k.build payload = .ok run →
            run.Descends Route.IsParent) ∧ t.route ≠ Route.unnamed →
        ∃ a₀ m₀, Active.Steps (c.start m r options) (a₀, m₀) ∧ a₀.act m₀ = .entered t ∧
          Active.Steps (a₀, m₀) (a, k) ∧ m'.state? t.route.text = some (m₀.state t.route) := by
  have hsole := sequential.sole c r options
  have hstart := c.start_reversible r options sequential.unmarked
  have hrun := Active.Alone.of_steps failed
  refine ⟨fun path st hst => ?_, fun path hpath => ?_, ?_, ?_⟩
  · have hend := hrun.reversible hsole hstart path
    rw [Model.entry_state, hst] at hend
    exact hend
  · rw [Records.mem_paths] at hpath ⊢
    exact hrun.isSome (Model.isSome_of_states (c.start_states m r options path) hpath)
  · exact hrun.verdicts.trans (c.start_verdicts r options)
  · intro a k reached failing inner t outer ht apart
    have halone : ∀ u ∈ outer, u.route.text ≠ t.route.text := by
      refine apart.elim id fun ⟨outside, named⟩ => ?_
      have hdescends := fun o => Rule.walk_descends o Route.isParent_child
        (compile_holds outside compiled)
      have hstrung := c.start_strung r options (sequential.rule_eq ▸ hdescends)
      exact (hstrung.steps reached).text_ne ht named
    obtain ⟨a₀, m₀, before, begins⟩ := (reached.begins hsole (t := t) (by simp [ht])).resolve_left
      (by simp)
    refine ⟨a₀, m₀, before, begins.act, begins.later, ?_⟩
    refine begins.restored hsole hstart ?_ before failing ht halone (reached.to_last failed rfl) rfl
    intro u hu
    simp at hu

/-- A schema with a keyword that visits a child at which another keyword breaks off. -/
def errandSchema : Value :=
  .object [("properties", .object [("a", .object [("child", .object [("key", .string "b"),
    ("schema", Overlap.breakingSchema)])])])]

/-- The rule of `errandSchema`. -/
def errandRule : Rule :=
  .node "#" [.leaf (.annotations none [] {}), .properties [.mk "a" false
    (.node "#/properties/a" [.leaf (.annotations none [] {}), .custom "child" true
      [.node "#/properties/a/child/schema" [.leaf (.annotations none [] {}),
        .custom "lookup" false [] fun _ _ _ route =>
          .read route fun
            | some (.string "boom") => .fail (.failed "lookup" route "unreachable")
            | _ => .done Outcome.pass] {} {}]
      (Extension.visitChild (.key "b") Outcome.silent)] {} {})]] {} {}

def errandData : Tree := some (.object [("a", .object [("b", .nat 1)])])

theorem compile_errandSchema : compile Extension.registry errandSchema = .ok errandRule := rfl

/-- A model of `errandSchema` on which a run has returned, and then the caller has put a value there
at which the next run breaks off. -/
def errandModel : Model :=
  ((Overlap.runAlone (.ofRule errandRule errandData {}) 40).setValue [.key "a", .key "b"]
    (some (.string "boom"))).1

theorem errandModel_sequential : Sequential errandRule errandData {} errandModel :=
  (Sequential.fresh.runAlone 40 (by decide +kernel)).used (.set _ _)

/-- The next run, which keeps to dirty places, after at most `n` steps. -/
def errandRun (n : Nat) : Active × Model :=
  let start := Call.validate.start errandModel [] { onlyDirtyRefs := true }
  (start.1.advance n start.2).2

/-- Of the three visits under way when the error is met only the innermost commits, and it puts back
that the earlier run has judged its place to be valid. -/
theorem failure_undoes_errand : ∃ (e : RuleError) (m' : Model) (a : Active) (k : Model),
    Sequential errandRule errandData {} errandModel ∧
    Call.validate.answer errandModel [] { onlyDirtyRefs := true } (fun _ => true) =
      (m', .failed e) ∧
    Active.Steps (Call.validate.start errandModel [] { onlyDirtyRefs := true }) (a, k) ∧
    a.failing = true ∧
    a.tickets.map (fun t => (t.route.text, t.commits)) =
      [("/a/b", true), ("/a", false), ("/", false)] ∧
    (∀ t ∈ a.tickets, ∃ a₀ m₀, a₀.act m₀ = .entered t ∧ Active.Steps (a₀, m₀) (a, k) ∧
      m'.state? t.route.text = some (m₀.state t.route)) ∧
    (m'.state? "/a/b").map State.status = some .success := by
  have reached : Active.Steps (Call.validate.start errandModel [] { onlyDirtyRefs := true })
      (errandRun 8) := .advance 8 _ _
  have failing : (errandRun 8).1.failing = true := by decide +kernel
  have named : ∀ t ∈ (errandRun 8).1.tickets, t.route ≠ Route.unnamed := by
    have hall : (errandRun 8).1.tickets.all (fun t => t.route ≠ Route.unnamed) = true := by
      decide +kernel
    exact fun t ht => of_decide_eq_true (List.all_eq_true.1 hall t ht)
  obtain ⟨⟨m', result⟩, answer, hfailed, restored⟩ :
      ∃ x, Call.validate.answer errandModel [] { onlyDirtyRefs := true } (fun _ => true) = x ∧
        x.2.isFailed = true ∧ (x.1.state? "/a/b").map State.status = some .success :=
    ⟨_, rfl, by decide +kernel, by decide +kernel⟩
  obtain ⟨e, rfl⟩ := RunResult.eq_of_isFailed hfailed
  obtain ⟨run, failed⟩ := Call.steps_of_failed .validate [] { onlyDirtyRefs := true } answer
  have undoes := (failure_undoes compile_errandSchema errandModel_sequential .validate []
    { onlyDirtyRefs := true } failed).2.2.2 _ _ reached failing
  refine ⟨e, m', (errandRun 8).1, (errandRun 8).2, errandModel_sequential, answer, reached,
    failing, by decide +kernel, fun t ht => ?_, restored⟩
  obtain ⟨inner, outer, hsplit⟩ := List.append_of_mem ht
  obtain ⟨a₀, m₀, -, act, later, hstate⟩ := undoes inner t outer hsplit (.inr
    ⟨fun k hk payload run => Extension.registry_descends Route.isParent_child hk, named t ht⟩)
  exact ⟨a₀, m₀, act, later, hstate⟩

/-- That a run which fails, over keys that can be names, leaves at each visit under way the state
that the visit has found. -/
def RestoresEach (registry : Registry) : Prop :=
  ∀ (schema : Value) (rule : Rule) (data : Tree) (config : ModelConfig) (m m' : Model) (c : Call)
    (r : Route) (options : ValidateOptions) (run : Run) (e : RuleError),
    schema.Spelled Segment.Name → data.Spelled Segment.Name → m.tree.Spelled Segment.Name →
    compile registry schema = .ok rule → Sequential rule data config m →
    Active.Steps (c.start m r options) (⟨run, .fail e, []⟩, m') →
    ∀ a k, Active.Steps (c.start m r options) (a, k) → a.failing = true →
      ∀ t ∈ a.tickets, ∃ a₀ m₀, Active.Steps (c.start m r options) (a₀, m₀) ∧
        a₀.act m₀ = .entered t ∧ Active.Steps (a₀, m₀) (a, k) ∧
        m'.state? t.route.text = some (m₀.state t.route)

/-- It is not so if the first run of a model fails within a visit that has found the mark of another
one. -/
theorem not_restoresEach {registry : Registry} (schema : Value) {rule : Rule} (data : Tree)
    (n : Nat) (compiled : compile registry schema = .ok rule) 
    (schemaNamed : schema.Spelled Segment.Name) (dataNamed : data.Spelled Segment.Name)
    (failed : (Call.validate.answer (.ofRule rule data {}) [] {} fun _ => true).2.isFailed = true)
    (failing : ((Call.validate.start (.ofRule rule data {}) [] {}).1.advance n
      (Call.validate.start (.ofRule rule data {}) [] {}).2).2.1.failing = true)
    (marked : ((Call.validate.start (.ofRule rule data {}) [] {}).1.advance n
      (Call.validate.start (.ofRule rule data {}) [] {}).2).2.1.tickets.any
        (·.previous.status = .validating) = true) : ¬ RestoresEach registry := by
  intro h
  have new : Sequential rule data {} (.ofRule rule data {}) := .fresh
  have reached := Active.Steps.advance n (Call.validate.start (.ofRule rule data {}) [] {}).1
    (Call.validate.start (.ofRule rule data {}) [] {}).2
  obtain ⟨t, underWay, marked⟩ := List.any_eq_true.1 marked
  generalize ha : Call.validate.answer (.ofRule rule data {}) [] {} (fun _ => true) = answer
    at failed
  obtain ⟨m', result⟩ := answer
  obtain ⟨e, rfl⟩ := RunResult.eq_of_isFailed failed
  obtain ⟨run, steps⟩ := Call.steps_of_failed .validate [] {} ha
  obtain ⟨a₀, m₀, before, act, later, hstate⟩ := h schema rule data {} _ m' .validate [] {} run e
    schemaNamed dataNamed dataNamed compiled new steps _ _ reached failing t underWay
  have hfound := ((Active.Alone.of_steps before).sole (new.sole .validate [] {})).found act later
    failing
  -- a run by itself leaves no marks
  have hend := (Sequential.failed new (.of_steps steps)).unmarked t.route.text
  rw [Model.entry_state, hstate, Option.getD_some, ← hfound] at hend
  exact hend (of_decide_eq_true marked)

/-- A keyword that visits its own place with the schema in its payload. -/
def again : Keyword where
  name := "again"
  reserves := []
  compound := true
  nested _ := .ok ["schema"]
  build _ := .ok fun _ walkers _ route =>
    match walkers with
    | [] => .done Outcome.pass
    | w :: _ => w.visit route Outcome.silent .done

def againRegistry : Registry :=
  { Extension.registry with keywords := again :: Extension.registry.keywords }

def againSchema : Value := .object [("again", .object [("schema", Overlap.breakingSchema)])]

/-- A schema with a default for what is under the empty key. -/
def unnamedSchema : Value :=
  .object [("child", .object [("key", .string ""), ("schema", .object [("default", .nat 1)])])]

/-- At `"boom"` a keyword breaks off within a visit of the root that is made within another one, and
in a text there is no place for the default under the empty key, whose path is that of the root. In
both runs the inner visit has found the mark of the outer one, and the record of the root is left as
it was before the outer one. -/
theorem inner_visits_not_restored :
    ¬ RestoresEach againRegistry ∧ ¬ RestoresEach Extension.registry := by
  have hkey : ∀ key ∈ ["again", "schema", "lookup", "child", "key", "default"],
      Segment.Name key := by decide
  have hbreaking : Overlap.breakingSchema.Spelled Segment.Name :=
    .single (hkey _ (by decide)) (.string _)
  have hdefault : Value.Spelled Segment.Name (.object [("default", .nat 1)]) :=
    .single (hkey _ (by decide)) (.number _)
  constructor
  · refine not_restoresEach againSchema (some (.string "boom")) 5 rfl ?_
      (Tree.spelled_some.2 (.string _)) (by decide +kernel) (by decide +kernel)
      (by decide +kernel)
    exact .single (hkey _ (by decide)) (.single (hkey _ (by decide)) hbreaking)
  · refine not_restoresEach unnamedSchema (some (.string "x")) 5 rfl ?_
      (Tree.spelled_some.2 (.string _)) (by decide +kernel) (by decide +kernel)
      (by decide +kernel)
    have hkeys : Segment.Name "key" ∧ Segment.Name "schema" :=
      ⟨hkey _ (by decide), hkey _ (by decide)⟩
    exact .single (hkey _ (by decide)) (.object
      (List.forall_mem_cons.2 ⟨hkeys.1, List.forall_mem_singleton.2 hkeys.2⟩)
      (List.forall_mem_cons.2 ⟨.string _, List.forall_mem_singleton.2 hdefault⟩))

end Sequential

end Conform
