import Conform.Proofs.Agreement
import Conform.Proofs.Confined
import Conform.Proofs.Merging
import Conform.Proofs.Stretch

/-!
# Runs at the root and trees of their own

A run at the root enters every place in full, so the walk of its rule gets the same answers from the
run as from a tree that nothing else sees. Whatever earlier runs and the caller have left in the
records, the run returns what evaluating the rule on the tree by itself says, and leaves the tree
that the evaluation leaves.
-/

namespace Conform

namespace Walk

/-- The same outcome and the same tree, or the same error. -/
def Detached.Agrees : Detached → Stop → Prop
  | finished o t, .done o' p => o' = o ∧ p.model.tree = t
  | failed e, .failed e' _ => e' = e
  | _, _ => False

namespace Detached

variable {o : Outcome} {t : Tree} {e : RuleError} {s : Stop}

theorem Agrees.of_finished (h : (finished o t).Agrees s) :
    ∃ p, s = .done o p ∧ p.model.tree = t := by
  cases s with
  | done o' p =>
    obtain ⟨rfl, rfl⟩ := h
    exact ⟨p, rfl, rfl⟩
  | failed e p => cases h
  | waiting rest frames p => cases h

theorem Agrees.of_failed (h : (failed e).Agrees s) : ∃ p, s = .failed e p := by
  cases s with
  | done o p => cases h
  | failed e' p =>
    obtain rfl : e' = e := h
    exact ⟨p, rfl⟩
  | waiting rest frames p => cases h

theorem not_agrees_pending {g : String} : ¬ (pending g).Agrees s := by
  cases s <;> exact id

theorem Agrees.of_done {d : Detached} {p : Progress} (h : d.Agrees (.done o p)) :
    d = finished o p.model.tree := by
  cases d with
  | finished o' t =>
    obtain ⟨rfl, rfl⟩ := h
    rfl
  | failed e => cases h
  | pending g => cases h

end Detached

/-- **One meaning.** A walk that keeps to its place comes to the same in a run at the root as on a
tree of its own. -/
theorem Confined.agrees {w : Walk} {place : Route} {known : Tree → Prop}
    (h : w.Confined place known) (isOpen : String → Bool) {p : Progress}
    (root : p.run.fromRoot = true) (hk : known p.model.tree) :
    (w.detached isOpen p.model.tree).Agrees (w.drive isOpen p) := by
  induction w generalizing place known p with
  | done o => exact ⟨rfl, rfl⟩
  | fail e => exact rfl
  | read r next ih => exact ih _ (h.2 _) root ⟨hk, rfl⟩
  | write r v next ih =>
    -- what is written is not there yet, so the model writes it too
    have new := h.2.2.1 _ hk
    cases hw : (Tree.set p.model.tree r v).refusal with
    | some e =>
      simp only [detached, drive, hw, Model.write_refused new hw]
      exact rfl
    | none =>
      obtain ⟨hdone, htree, -⟩ := Model.write_done new hw
      simp only [detached, drive, hw, hdone]
      have hnext := ih h.2.2.2 (p := ⟨p.run, (p.model.write r v).model⟩) root
        ⟨_, hk, by rw [htree, ← hw]⟩
      rwa [htree] at hnext
  | await g next ih => exact absurd h id
  | visit r d hint body next ihb ihn =>
    have hmeet := Progress.meet_fromRoot root r d
    have henter := p.enter_keeps r .validating
    have htree := p.enter_tree r .validating
    have hbody := ihb .full (h.2.1 .full) (henter.fromRoot.trans root) trivial
    rw [htree] at hbody
    simp only [detached, drive, hmeet]
    cases hs : (body .full).detached isOpen p.model.tree with
    | pending g => exact absurd (hs ▸ hbody) Detached.not_agrees_pending
    | failed e =>
      rw [hs] at hbody
      obtain ⟨q, hd⟩ := hbody.of_failed
      simp only [hd]
      exact rfl
    | finished o t =>
      rw [hs] at hbody
      obtain ⟨q, hd, rfl⟩ := hbody.of_finished
      simp only [hd]
      obtain ⟨computed, hsame⟩ :=
        q.settle_same (p.enter r .validating).2 (Outcome.merge [hint, o])
      have hroot : (q.settle (p.enter r .validating).2 (Outcome.merge [hint, o])).run.fromRoot =
          true := by
        rw [hsame, ← root, ← henter.fromRoot, ← (drive_keeps hd).fromRoot]
        rfl
      have hnext := ihn (Outcome.merge [hint, o]) (h.2.2 _) hroot trivial
      rwa [Progress.settle_tree] at hnext

/-- Whether every outcome that the walk can come to satisfies `P`. -/
def Ends (P : Outcome → Prop) : Walk → Prop
  | done o => P o
  | fail _ => True
  | read _ next => ∀ v, (next v).Ends P
  | write _ _ next => next.Ends P
  | await _ next => next.Ends P
  | visit _ _ _ _ next => ∀ o, (next o).Ends P

section

variable {P : Outcome → Prop}

theorem Ends.andThen {k : Outcome → Walk} (h : ∀ o, (k o).Ends P) (w : Walk) :
    (w.andThen k).Ends P := by
  induction w with
  | done o => exact h o
  | fail e => trivial
  | read r next ih => exact ih
  | write r v next ih => exact ih
  | await g next ih => exact ih
  | visit r d hint body next _ ih => exact ih

theorem Ends.detached {w : Walk} (h : w.Ends P) {isOpen : String → Bool} {t t' : Tree}
    {o : Outcome} (hd : w.detached isOpen t = .finished o t') : P o := by
  induction w generalizing t with
  | done o => cases hd; exact h
  | fail e => cases hd
  | read r next ih => exact ih _ (h _) hd
  | write r v next ih =>
    simp only [Walk.detached] at hd
    split at hd
    · cases hd
    · exact ih h hd
  | await g next ih =>
    simp only [Walk.detached] at hd
    split at hd
    · exact ih h hd
    · cases hd
  | visit r d hint body next _ ih =>
    simp only [Walk.detached] at hd
    split at hd
    · exact ih _ (h _) hd
    · cases hd
    · cases hd

end

end Walk

theorem NodeMessages.resolve_folded (node : NodeMessages) (caller : Messages) {o : Outcome}
    (h : o.Folded) : (node.resolve caller o).Folded where
  quiet hv := by
    have hv : o.valid = none := hv
    simp [resolve, hv, h.quiet hv]
  keys := h.keys

theorem Check.runAll_ends {P : Outcome → Prop} (mode : Mode) (route : Route)
    {finish : List Outcome → Walk} (h : ∀ os, (finish os).Ends P) (os : List Outcome)
    (cs : List Ready) : (runAll mode route finish os cs).Ends P := by
  induction cs generalizing os with
  | nil => exact h os
  | cons c cs ih =>
    unfold runAll
    split
    · exact ih os
    · exact Walk.Ends.andThen (fun o => ih _) _

/-- What a rule says of a place is folded. -/
theorem Rule.walk_ends (options : EvalOptions) (r : Rule) (mode : Mode) (route : Route) :
    (r.walk options mode route).Ends Outcome.Folded := by
  match r with
  | .node _ checks messages _ =>
    rw [Rule.walk]
    refine Check.runAll_ends mode route (fun os => ?_) [] _
    exact messages.resolve_folded options.messages (Outcome.merge_folded os)

namespace Progress

variable {p : Progress}

theorem finish_state?_visited {q : String} (h : p.run.visited.contains q = true) :
    p.finish.1.state? q = p.model.state? q := by
  cases hs : p.model.state? q <;> simp [finish_state?, h, hs]

/-- What a run answers where an older state stands at its target: what it has computed there, or
else whether that state is a success. -/
theorem finish_older
    (older : ((p.finish.1.state? p.run.target.text).getD {}).valLock < p.run.ordinal) :
    p.finish.2 = p.run.computed.getD
      (decide (((p.finish.1.state? p.run.target.text).getD {}).status = .success)) := by
  rw [← Model.entry_state] at older ⊢
  show verdict _ = _
  unfold verdict
  rw [if_neg fun hn => absurd hn.1 (Nat.not_le.2 older)]
  cases p.run.computed <;> rfl

/-- A run at the root settles the root last. It answers with that outcome, and where it commits at
the root it leaves the outcome on record. -/
theorem finish_root {q : Progress} (root : p.run.target = [])
    (older : ∀ path, ((p.model.state? path).getD {}).valLock < p.run.ordinal)
    (open_ : ∀ path, p.model.records.superseded path p.run.ordinal = false)
    (hk : (p.enter [] .validating).1.Keeps q) (o : Outcome) :
    (q.settle (p.enter [] .validating).2 o).finish.2 = o.passes ∧
      (p.commitsAt "/" = true →
        (q.settle (p.enter [] .validating).2 o).finish.1.state? "/" = some (q.settlement o)) := by
  have hpq := (p.enter_keeps [] .validating).trans hk
  generalize ht : (p.enter [] .validating).2 = t
  have hroute : t.route = [] := by rw [← ht, p.enter_route]
  have hcommits : t.commits = p.commitsAt "/" := by
    rw [← ht, p.enter_commits, Route.text, open_]
    rfl
  have htarget : q.run.target = [] := hpq.target.trans root
  have hrun : (q.settle t o).run = { q.run with computed := some o.passes } := by
    rw [q.settle_run, hroute, htarget, if_pos rfl]
  have hvisited : (q.settle t o).run.visited.contains "/" = true := by
    rw [hrun]
    refine hk.visited "/" ?_
    rw [p.enter_run, Run.visit_contains]
    exact .inl rfl
  have hlast := finish_state?_visited hvisited
  cases hc : p.commitsAt "/" with
  | true =>
    have hnewest : p.Newest := fun path st hst => by
      have := older path
      rw [hst] at this
      exact Nat.le_of_lt this
    have hmay : q.model.mayCommit "/" q.run.ordinal = true :=
      (hpq.newest hnewest).mayCommit (by rw [hpq.kept.cleared, hpq.ordinal]; exact open_ "/")
    have hstate : (q.settle t o).finish.1.state? "/" = some (q.settlement o) := by
      rw [hlast, settle_state?, hcommits, hroute]
      exact if_pos ⟨hc, rfl, hmay⟩
    have hverdict : (q.settle t o).finish.2 = true ↔ (q.settlement o).status ≠ .error := by
      refine finish_verdict ?_ ?_ ?_
      · rw [hrun, show ({ q.run with computed := some o.passes } : Run).target = [] from htarget]
        exact hstate
      · rw [hrun]
        rfl
      · rw [settlement_status]
        split <;> decide
    refine ⟨?_, fun _ => hstate⟩
    rw [Bool.eq_iff_iff, hverdict, settlement_status, Outcome.passes]
    cases o.isInvalid <;> simp
  | false =>
    refine ⟨(finish_older ?_).trans (by rw [hrun]; rfl), fun h => (by cases h)⟩
    have hidle := hpq.idle "/" hc
    rw [Model.entry_state, Model.entry_state] at hidle
    rw [hrun, show ({ q.run with computed := some o.passes } : Run).target = [] from htarget,
      Route.text, hlast, settle_state?, if_neg (by rw [hcommits, hc]; simp), hidle,
      show ({ q.run with computed := some o.passes } : Run).ordinal = p.run.ordinal
        from hpq.ordinal]
    exact older "/"

end Progress

namespace Call

variable (c : Call) (m : Model) (r : Route) (options : ValidateOptions)

/-- A run and the model it is to work on, before its first step. -/
def progress : Progress := ⟨(c.start m r options).1.run, (c.start m r options).2⟩

/-- How rules are to be evaluated in a run of the model. -/
def evaluation : EvalOptions := (options.withConfig m.config).evaluation m.config.messages

/-- All that a run does is to visit the root. -/
theorem drive_start (isOpen : String → Bool) :
    (c.start m r options).1.drive isOpen (c.start m r options).2 =
      (Walk.visit [] m.rule.declaration Outcome.silent
        (fun mode => m.rule.walk (evaluation m options) mode []) .done).drive isOpen
        (c.progress m r options) := by
  cases c <;> rfl

/-- A call that is answered at once has driven its run to an outcome. -/
theorem drive_of_answer {c : Call} {m m' : Model} {r : Route} {options : ValidateOptions}
    {isOpen : String → Bool} {valid : Bool}
    (h : c.answer m r options isOpen = (m', .finished valid)) :
    ∃ o p, (Walk.visit [] m.rule.declaration Outcome.silent
        (fun mode => m.rule.walk (evaluation m options) mode []) .done).drive isOpen
        (c.progress m r options) = .done o p ∧ p.finish = (m', valid) := by
  rw [c.answer_eq, Active.resume, c.drive_start] at h
  generalize (Walk.visit [] m.rule.declaration Outcome.silent (fun mode =>
    m.rule.walk (evaluation m options) mode []) .done).drive isOpen (c.progress m r options)
    = stop at h
  cases stop with
  | failed e p => cases h
  | waiting rest frames p => cases h
  | done o p =>
    cases h
    exact ⟨o, p, rfl, rfl⟩

@[simp] theorem progress_ordinal : (c.progress m r options).run.ordinal = m.runs + 1 :=
  c.start_ordinal m r options

@[simp] theorem progress_target :
    (c.progress m r options).run.target = Model.runTarget r options := c.start_target m r options

@[simp] theorem progress_onlyDirtyRefs : (c.progress m r options).run.options.onlyDirtyRefs =
    (options.withConfig m.config).onlyDirtyRefs := c.start_onlyDirtyRefs m r options

@[simp] theorem progress_tree : (c.progress m r options).model.tree = m.tree := by
  cases c <;> rfl

@[simp] theorem progress_visited : (c.progress m r options).run.visited = {} := by cases c <;> rfl

@[simp] theorem progress_computed : (c.progress m r options).run.computed = none := by
  cases c <;> rfl

@[simp] theorem progress_changes : (c.progress m r options).model.changes = m.changes := by
  cases c <;> rfl

@[simp] theorem progress_config : (c.progress m r options).model.config = m.config := by
  cases c <;> rfl

end Call

/-- The state has the status, the text, the flags and the annotations of the outcome. -/
structure State.Reports (st : State) (o : Outcome) : Prop where
  status : st.status = if o.valid = some false then .error else .success
  message : st.message = o.message
  required : st.required = o.required
  readOnly : st.readOnly = o.readOnly
  writeOnly : st.writeOnly = o.writeOnly
  annotations : st.annotations = o.annotations

theorem State.settled_reports (valLock : Nat) (errLock : Option Nat) (o : Outcome) :
    (settled valLock errLock o).Reports o where
  status := by simp [settled, Outcome.isInvalid]
  message := rfl
  required := rfl
  readOnly := rfl
  writeOnly := rfl
  annotations := rfl

namespace Overlap

/-- A run that has just been started is newer than every record, and no ground is cleared for it. -/
theorem Numbered.progress {s : Overlap} (h : Numbered s) (c : Call) (r : Route)
    (options : ValidateOptions) :
    (∀ q, ((((c.progress s.model r options).model.state? q).getD {}).valLock <
        (c.progress s.model r options).run.ordinal)) ∧
      ∀ q, (c.progress s.model r options).model.records.superseded q
        (c.progress s.model r options).run.ordinal = false := by
  have hstarted := h.started c r options
  simp only [Call.progress_ordinal]
  refine ⟨fun q => Nat.lt_succ_of_le ?_, fun q => ?_⟩
  · rcases c.start_states s.model r options q with hq | ⟨-, hq⟩
    · rw [Call.progress, hq]
      exact Model.valLock_le_of_record (h.stamp_le q)
    · rw [Call.progress, hq]
      exact Nat.zero_le _
  · rw [← c.start_runs s.model r options]
    exact hstarted.open_ q

theorem Numbered.progress_newest {s : Overlap} (h : Numbered s) (c : Call) (r : Route)
    (options : ValidateOptions) : (c.progress s.model r options).Newest := by
  intro q st hst
  have hq := (h.progress c r options).1 q
  rw [hst] at hq
  exact Nat.le_of_lt hq

/-- **A run at the root is the evaluation of its rule.** Where the schema holds built-in keywords
only, a run at the root of any model, whatever earlier runs and the caller have left on record,
returns what evaluating the rule on the model's tree by itself says, and leaves the tree that this
leaves; or both fail with the same error. Unless it keeps to dirty places, the root is on record
with the number of the run and with all that the outcome says. -/
theorem root_run_eq_detached {registry : Registry} {schema : Value} {rule : Rule} {data : Tree}
    {config : ModelConfig} {hist : List Event} {s : Overlap} (plain : registry.keywords = [])
    (compiled : compile registry schema = .ok rule) (before : Trace (fresh rule data config) hist s)
    (c : Call) (r : Route) (options : ValidateOptions) (root : Model.runTarget r options = [])
    (isOpen : String → Bool) :
    match rule.evaluateDetached (Call.evaluation s.model options) isOpen s.model.tree with
    | .finished o t =>
      ∃ m, c.answer s.model r options isOpen = (m, .finished o.passes) ∧ m.tree = t ∧
        ((options.withConfig s.model.config).onlyDirtyRefs = false →
          ∃ st, m.state? "/" = some st ∧ st.valLock = s.model.runs + 1 ∧ st.Reports o)
    | .failed e => ∃ m, c.answer s.model r options isOpen = (m, .failed e)
    | .pending _ => False := by
  have builtIn := compile_isBuiltIn plain compiled
  have hrule : s.model.rule = rule := (Rising.trace builtIn before).rule
  obtain ⟨older, open_⟩ := ((Numbered.fresh rule data config).trace before).progress c r options
  -- the run enters the root, and its walk there agrees with that of the evaluation
  generalize hp : c.progress s.model r options = p at older open_
  have hroot : p.run.fromRoot = true := by
    rw [← hp, Run.fromRoot, c.progress_target, root]
    rfl
  have htree : p.model.tree = s.model.tree := by rw [← hp, c.progress_tree]
  have henter := p.enter_keeps [] .validating
  have hagrees := (Rule.walk_confined (Call.evaluation s.model options) builtIn .full []).agrees
    isOpen (p := (p.enter [] .validating).1) (henter.fromRoot.trans hroot) trivial
  rw [p.enter_tree, htree] at hagrees
  have hanswer : c.answer s.model r options isOpen =
      ((Walk.visit [] rule.declaration Outcome.silent
        (fun mode => rule.walk (Call.evaluation s.model options) mode []) .done).drive isOpen
        p).result := by
    rw [c.answer_eq, Active.resume, c.drive_start, hrule, hp]
  simp only [Walk.drive, Progress.meet_fromRoot hroot] at hanswer
  rw [Rule.evaluateDetached]
  cases hd : (rule.walk (Call.evaluation s.model options) .full []).detached isOpen
    s.model.tree with
  | pending g =>
    rw [hd] at hagrees
    exact Walk.Detached.not_agrees_pending hagrees
  | failed e =>
    rw [hd] at hagrees
    obtain ⟨q, hb⟩ := hagrees.of_failed
    rw [hb] at hanswer
    exact ⟨_, hanswer⟩
  | finished o t =>
    rw [hd] at hagrees
    obtain ⟨q, hb, hqtree⟩ := hagrees.of_finished
    rw [hb] at hanswer
    have hkeeps := Walk.drive_keeps hb
    have hfolded : Outcome.merge [Outcome.silent, o] = o :=
      ((Rule.walk_ends _ rule .full []).detached hd).merge_silent
    obtain ⟨hverdict, hstate⟩ := Progress.finish_root (by rw [← hp, c.progress_target, root])
      older open_ hkeeps o
    simp only [hfolded, Stop.result] at hanswer
    rw [hverdict] at hanswer
    refine ⟨_, hanswer, (q.settle_tree _ _).trans hqtree, fun full => ?_⟩
    have hordinal : q.run.ordinal = s.model.runs + 1 := by
      rw [(henter.trans hkeeps).ordinal, ← hp, c.progress_ordinal]
    have hcommits : p.commitsAt "/" = true := by
      rw [Progress.commitsAt, ← hp, c.progress_onlyDirtyRefs, full]
      rfl
    have hlast := hstate hcommits
    rw [Progress.settlement, hordinal] at hlast
    exact ⟨_, hlast, rfl, State.settled_reports _ _ o⟩

/-- Integers from 5 on, with a title, which are required and neither shown nor changed. -/
def limitSchema : Value :=
  .object [("title", .string "count"), ("readOnly", .bool true), ("writeOnly", .bool true),
    ("required", .bool true), ("type", .string "integer"), ("minimum", .nat 5)]

/-- The rule of `limitSchema`. -/
def limitRule : Rule :=
  .node "#" [.leaf (.annotations none []
      { readOnly := true, writeOnly := true, annotations := [("title", .string "count")] }),
    .leaf (.present true), .leaf (.type [.integer]), .leaf (.bound .minimum (.int 5))] {} {}

/-- A text that the caller has set is turned into the integer it writes, which is too small; the
record of the root says so, field by field. -/
theorem root_run_eq_detached_coerced :
    ∃ m st, Call.validate.answer
        ((Model.ofRule limitRule none {}).setValue [] (some (.string "3"))).1 []
        { coerceTypes := true } (fun _ => true) = (m, .finished false) ∧
      m.tree = some (.int 3) ∧ m.state? "/" = some st ∧ st.valLock = 1 ∧ st.status = .error ∧
      st.message = some "must be >= 5" ∧ st.required = true ∧ st.readOnly = true ∧
      st.writeOnly = true ∧
      st.annotations = [("title", .string "count"), ("minimum", .nat 5)] := by
  have compiled : compile Registry.standard limitSchema = .ok limitRule := rfl
  have before : Trace (fresh limitRule none {}) ([] ++ [.referenced]) _ :=
    .snoc (.nil _) (.set (Model.ofRule limitRule none {}) [] [] (some (.string "3")))
  have hd : limitRule.evaluateDetached
      (Call.evaluation ((Model.ofRule limitRule none {}).setValue [] (some (.string "3"))).1
        { coerceTypes := true }) (fun _ => true)
      ((Model.ofRule limitRule none {}).setValue [] (some (.string "3"))).1.tree =
      .finished
        { valid := some false
          message := some "must be >= 5"
          keyword := some "minimum"
          required := true
          readOnly := true
          writeOnly := true
          annotations := [("title", .string "count"), ("minimum", .nat 5)] }
        (some (.int 3)) := rfl
  have h := root_run_eq_detached rfl compiled before .validate [] { coerceTypes := true } rfl
    fun _ => true
  rw [hd] at h
  obtain ⟨m, hanswer, htree, hrecord⟩ := h
  obtain ⟨st, hst, hlock, reports⟩ := hrecord rfl
  exact ⟨m, st, hanswer, htree, hst, hlock, reports.status, reports.message, reports.required,
    reports.readOnly, reports.writeOnly, reports.annotations⟩

end Overlap

end Conform
