import Conform.Proofs.Descent
import Conform.Proofs.ErrorNumbers
import Conform.Proofs.Rerun
import Conform.Proofs.Spelling

/-!
# Errors, deepest first

A walk comes to a place from its parent only, and a place is judged after all that is visited from
there. So whatever is judged of a place, each of the places above it is judged once more later on.
A run that commits everywhere numbers the failures in the order in which it judges them, and what
counts of a place is the last number, so of two places that fail the deeper one has the smaller
number. Paths tell which one is deeper as long as every key can be a piece of a path.
-/

namespace Conform

theorem Segment.digits_name : Segment.Digits Segment.Name := fun _ h => (addressable_index h).toName

theorem Route.Spelled.addressable {r : Route} (h : r.Spelled Segment.Name) : r.Addressable :=
  fun s hs => ⟨(h s hs).spelled, (h s hs).named⟩

namespace Path

/-- Whatever lies under a path lies under all that this path lies under. -/
theorem isAtOrUnder_of_isUnder_of {p q r : String} (h : isUnder p q = true)
    (h' : isAtOrUnder q r = true) (hr : r ≠ "") : isAtOrUnder p r = true := by
  rw [isAtOrUnder, Bool.or_eq_true, decide_eq_true_eq] at h'
  rcases h' with rfl | h'
  · exact isAtOrUnder_of_isUnder h
  · by_cases hroot : r = "/"
    · rw [hroot, isAtOrUnder_root]
    · apply isAtOrUnder_of_isUnder
      rw [isUnder, if_neg hroot, List.isPrefixOf_iff_prefix] at h' ⊢
      have hq : q ≠ "/" := by
        rintro rfl
        have hlength := h'.length_le
        have hempty : r.toList = [] := List.eq_nil_of_length_eq_zero (by simpa using hlength)
        exact hr (String.toList_eq_nil_iff.1 hempty)
      rw [isUnder, if_neg hq, List.isPrefixOf_iff_prefix] at h
      exact h'.trans ((List.prefix_append _ _).trans h)

end Path

theorem Route.text_ne_empty (r : Route) : r.text ≠ "" := by
  intro h
  by_cases hr : r = []
  · subst hr
    exact absurd h (by decide)
  · have hchars := congrArg String.toList h
    rw [toList_text hr] at hchars
    cases r with
    | nil => exact hr rfl
    | cons s r => cases hchars

/-- Each of the paths is that of a place below `ground`, and all the places in between have their
turns later on. -/
def Climbing (ground : Route) : List (String × Outcome) → Prop
  | [] => True
  | (path, _) :: js =>
    (∃ r : Route, r.Addressable ∧ r.text = path ∧ ground <+: r ∧
      ∀ q : Route, ground <+: q → q ≠ ground → q <+: r → q ≠ r → q.text ∈ js.map Prod.fst) ∧
    Climbing ground js

namespace Climbing

variable {ground : Route} {js ks : List (String × Outcome)}

theorem append (h : Climbing ground js) (h' : Climbing ground ks) :
    Climbing ground (js ++ ks) := by
  induction js with
  | nil => exact h'
  | cons j js ih =>
    obtain ⟨⟨r, hr, htext, hground, hlater⟩, hjs⟩ := h
    refine ⟨⟨r, hr, htext, hground, fun q hq hne hqr hqne => ?_⟩, ih hjs⟩
    have hq := hlater q hq hne hqr hqne
    exact List.map_append ▸ List.mem_append_left _ hq

/-- What is judged within a child comes before the child itself. -/
theorem enclose {s : Segment} (h : Climbing (ground.child s) js)
    (hs : (ground.child s).Addressable) (o : Outcome) :
    Climbing ground (js ++ [((ground.child s).text, o)]) := by
  have hchild : ground <+: ground.child s := List.prefix_append ground [s]
  -- a place below the ground is the child as soon as it is on the way to it
  have between : ∀ q : Route, ground <+: q → q ≠ ground → q <+: ground.child s →
      q = ground.child s := by
    rintro q ⟨u, rfl⟩ hne hqs
    have hu : u <+: [s] := (List.prefix_append_right_inj ground).1 hqs
    cases u with
    | nil => exact absurd (List.append_nil ground) hne
    | cons x u =>
      obtain ⟨v, hv⟩ := hu
      obtain ⟨hx, hnil⟩ := List.cons.inj hv
      rw [hx, (List.append_eq_nil_iff.1 hnil).1]
      rfl
  induction js with
  | nil =>
    exact ⟨⟨_, hs, rfl, hchild, fun q hq hne hqr hqne => absurd (between q hq hne hqr) hqne⟩,
      trivial⟩
  | cons j js ih =>
    obtain ⟨⟨r, hr, htext, hbelow, hlater⟩, hjs⟩ := h
    refine ⟨⟨r, hr, htext, hchild.trans hbelow, fun q hq hne hqr hqne => ?_⟩, ih hjs⟩
    show q.text ∈ (js ++ _).map Prod.fst
    rw [List.map_append, List.mem_append]
    by_cases he : q = ground.child s
    · exact .inr (by simp [he])
    · refine .inl (hlater q ?_ he hqr hqne)
      rcases List.prefix_or_prefix_of_prefix hqr hbelow with hle | hle
      · exact absurd (between q hq hne hle) he
      · exact hle

theorem of_append (h : Climbing ground (js ++ ks)) : Climbing ground ks := by
  induction js with
  | nil => exact h
  | cons j js ih => exact ih h.2

end Climbing

namespace Walk

/-- A walk that visits children only judges a place after all that it judges below. -/
theorem Judges.climbing {w : Walk} {t t' : Tree} {js : List (String × Outcome)} {o : Outcome}
    (h : w.Judges t js o t') {ground : Route}
    (descends : w.Descends Route.IsParent ground)
    (spelled : w.Spelled Segment.Name) (ht : t.Spelled Segment.Name) :
    Climbing ground js ∧ t'.Spelled Segment.Name := by
  induction h generalizing ground with
  | done o t => exact ⟨trivial, ht⟩
  | read rest ih => exact ih (descends _) (spelled _ (ht.get? _)) ht
  | write new admitted rest ih =>
    obtain ⟨hr, hv, hnext⟩ := spelled
    exact ih descends hnext (ht.set hr hv)
  | @visit r d hint body next t t₁ t' js ks said o inner rest ihi ihr =>
    obtain ⟨⟨s, rfl⟩, hbody, hnext⟩ := descends
    obtain ⟨hr, hinner, hrest⟩ := spelled
    obtain ⟨hjs, ht₁⟩ := ihi (hbody _) (hinner _) ht
    obtain ⟨hks, ht'⟩ := ihr (hnext _) (hrest _) ht₁
    have hclimbing := (hjs.enclose hr.addressable (Outcome.merge [hint, said])).append hks
    rw [List.append_assoc] at hclimbing
    exact ⟨hclimbing, ht'⟩

end Walk

/-- An entry of a list that ends with another entry is this one, or comes before it. -/
theorem split_concat {α : Type} {xs before after : List α} {x y : α}
    (h : xs ++ [x] = before ++ y :: after) :
    after = [] ∧ x = y ∧ xs = before ∨ ∃ as, after = as ++ [x] ∧ xs = before ++ y :: as := by
  rcases List.eq_nil_or_concat after with rfl | ⟨as, z, rfl⟩
  · obtain ⟨hxs, hx⟩ := List.append_inj' h rfl
    exact .inl ⟨rfl, List.singleton_inj.1 hx, hxs⟩
  · rw [List.concat_eq_append, ← List.cons_append, ← List.append_assoc] at h
    obtain ⟨hxs, hx⟩ := List.append_inj' h rfl
    rw [List.singleton_inj.1 hx]
    exact .inr ⟨as, List.concat_eq_append, hxs⟩

/-- What is judged at the root in the end is judged after all else. -/
theorem Climbing.ascending {js : List (String × Outcome)} (h : Climbing [] js) {o o' : Outcome}
    {before after : List (String × Outcome)} {path : String}
    (split : js ++ [("/", o)] = before ++ (path, o') :: after) :
    ∃ r : Route, r.Addressable ∧ r.text = path ∧
      ∀ q : Route, q <+: r → q ≠ r → q.text ∈ after.map Prod.fst := by
  rcases split_concat split with ⟨rfl, he, rfl⟩ | ⟨as, rfl, rfl⟩
  · cases he
    have hroot : Route.Addressable [] := fun s hs => nomatch hs
    exact ⟨[], hroot, rfl, fun q hq hne => absurd (List.prefix_nil.1 hq) hne⟩
  · obtain ⟨⟨r, hr, htext, -, hlater⟩, -⟩ := h.of_append
    refine ⟨r, hr, htext, fun q hq hne => ?_⟩
    rw [List.map_append, List.mem_append]
    by_cases hroot : q = []
    · exact .inr (by simp [hroot, Route.text])
    · exact .inl (hlater q List.nil_prefix hroot hq hne)

theorem exists_split_of_lastJudged {js : List (String × Outcome)} {path : String} {o : Outcome}
    (h : lastJudged js path = some o) :
    ∃ before after, js = before ++ (path, o) :: after ∧ lastJudged after path = none := by
  induction js with
  | nil => cases h
  | cons j js ih =>
    rw [← List.singleton_append, lastJudged_append] at h
    cases hjs : lastJudged js path with
    | some o' =>
      rw [hjs, Option.some_or, Option.some.injEq] at h
      subst h
      obtain ⟨before, after, rfl, hafter⟩ := ih hjs
      exact ⟨j :: before, after, rfl, hafter⟩
    | none =>
      rw [hjs, Option.none_or] at h
      have hj := lastJudged_concat [] j.1 path j.2
      rw [List.nil_append, h] at hj
      split at hj
      · next he =>
        cases hj
        exact ⟨[], js, by rw [← he]; rfl, hjs⟩
      · cases hj

/-- Of two places that are judged, one under the other, the deeper one has its last turn first. -/
theorem Climbing.last_turns {js : List (String × Outcome)} (h : Climbing [] js) {o : Outcome}
    {p q : String} {a b : Outcome} (hp : lastJudged (js ++ [("/", o)]) p = some a)
    (hq : lastJudged (js ++ [("/", o)]) q = some b) (under : Path.isUnder p q = true) :
    ∃ before between after,
      js ++ [("/", o)] = before ++ (p, a) :: (between ++ (q, b) :: after) ∧
        lastJudged (between ++ (q, b) :: after) p = none ∧ lastJudged after q = none := by
  obtain ⟨before, rest, split, hrest⟩ := exists_split_of_lastJudged hp
  obtain ⟨before', rest', split', -⟩ := exists_split_of_lastJudged hq
  obtain ⟨r, hr, rfl, hlater⟩ := h.ascending split
  obtain ⟨t, ht, rfl, -⟩ := h.ascending split'
  have hprefix : t <+: r := (Path.isAtOrUnder_iff ht hr).1 (Path.isAtOrUnder_of_isUnder under)
  have hne : t ≠ r := by
    rintro rfl
    rw [Path.isUnder_self] at under
    cases under
  have hturn : lastJudged rest t.text = some b := by
    cases hlast : lastJudged rest t.text with
    | none => exact absurd (hlater t hprefix hne) (lastJudged_eq_none.1 hlast)
    | some b' =>
      rw [split, ← List.singleton_append, lastJudged_append, lastJudged_append, hlast] at hq
      exact hq
  obtain ⟨between, after, rfl, hafter⟩ := exists_split_of_lastJudged hturn
  exact ⟨before, between, after, split, hrest, hafter⟩

/-- How many of the outcomes are failures. -/
def failuresIn (js : List (String × Outcome)) : Nat := js.countP fun j => j.2.isInvalid

theorem failuresIn_append (js ks : List (String × Outcome)) :
    failuresIn (js ++ ks) = failuresIn js + failuresIn ks := List.countP_append

theorem failuresIn_concat (js : List (String × Outcome)) (path : String) (o : Outcome) :
    failuresIn (js ++ [(path, o)]) = failuresIn js + if o.isInvalid then 1 else 0 := by
  rw [failuresIn_append]
  cases h : o.isInvalid <;> simp [failuresIn, h]

namespace Progress

/-- If the run commits everywhere, it counts the failures, and a place that fails in the end has the
number of its last failure. -/
structure Counts (p : Progress) (js : List (String × Outcome)) (p' : Progress) : Prop
    extends p.Settles js p' where
  errors : (∀ q, p.commitsAt q = true) → p'.model.errors = p.model.errors + failuresIn js
  number : (∀ q, p.commitsAt q = true) → ∀ {before after q o}, js = before ++ (q, o) :: after →
    lastJudged after q = none → o.isInvalid = true →
      p'.model.errorNumber? q = some (p.model.errors + failuresIn before + 1)

namespace Counts

variable {p p' p'' : Progress} {js ks : List (String × Outcome)}

theorem refl (p : Progress) : p.Counts [] p where
  toSettles := .refl p
  errors _ := rfl
  number _ _ _ _ _ h := absurd h (by simp)

theorem write (p : Progress) (r : Route) (v : Option Value) :
    p.Counts [] ⟨p.run, (p.model.write r v).model⟩ where
  toSettles := .write p r v
  errors _ := (p.model.write_records r v).errors
  number _ _ _ _ _ h := absurd h (by simp)

theorem trans (h : p.Counts js p') (h' : p'.Counts ks p'') : p.Counts (js ++ ks) p'' where
  toSettles := h.toSettles.trans h'.toSettles
  errors hc := by
    rw [h'.errors fun q => (h.commitsAt q).trans (hc q), h.errors hc, failuresIn_append,
      Nat.add_assoc]
  number hc before after q o split last invalid := by
    have hc' : ∀ q, p'.commitsAt q = true := fun q => (h.commitsAt q).trans (hc q)
    have hlate : ∀ as, ks = as ++ (q, o) :: after → before = js ++ as →
        p''.model.errorNumber? q = some (p.model.errors + failuresIn before + 1) := by
      intro as hks hbefore
      rw [h'.number hc' hks last invalid, h.errors hc, hbefore, failuresIn_append, Nat.add_assoc
        p.model.errors]
    rcases List.append_eq_append_iff.1 split with ⟨as, hbefore, hks⟩ | ⟨as, hjs, hrest⟩
    · exact hlate as hks hbefore
    · cases as with
      | nil => exact hlate [] hrest.symm (by rw [hjs, List.append_nil, List.append_nil])
      | cons a as =>
        obtain ⟨rfl, rfl⟩ := List.cons.inj hrest
        have last : lastJudged (as ++ ks) q = none := last
        rw [lastJudged_append, Option.or_eq_none_iff] at last
        rw [Model.errorNumber?, h'.elsewhere q last.1]
        exact h.number hc hjs last.2 invalid

theorem visit (fore : p.Foremost) {route : Route} {scope : Scope}
    (h : (p.enter route scope).1.Counts js p') (o : Outcome) :
    p.Counts (js ++ [(route.text, o)]) (p'.settle (p.enter route scope).2 o) := by
  have henter := p.enter_keeps route scope
  have hkeeps := henter.trans h.toKeeps
  have hmay := (fore.of_keeps hkeeps).newest.mayCommit ((fore.of_keeps hkeeps).open_ route.text)
  have hstate := p'.settle_state? (p.enter route scope).2 o
  rw [p.enter_route] at hstate
  have hfull : (∀ q, p.commitsAt q = true) → ∀ q, (p.enter route scope).1.commitsAt q = true :=
    fun hc q => (henter.commitsAt q).trans (hc q)
  have hcommits : (∀ q, p.commitsAt q = true) → (p.enter route scope).2.commits = true := by
    intro hc
    have hopen := fore.open_ route.text
    rw [p.enter_commits, hopen]
    exact hc route.text
  refine ⟨h.toSettles.visit fore o, fun hc => ?_, fun hc before after q o' split last invalid => ?_⟩
  · rw [settle_errors, hcommits hc, h.errors (hfull hc), p.enter_errors, failuresIn_concat]
    cases o.isInvalid <;> simp [Nat.add_assoc]
  · rcases split_concat split with ⟨rfl, he, rfl⟩ | ⟨as, rfl, hjs⟩
    · cases he
      rw [Model.errorNumber?, hstate, if_pos ⟨hcommits hc, rfl, hmay⟩, Option.bind_some, settlement,
        h.errors (hfull hc), p.enter_errors, if_pos invalid]
      rfl
    · rw [lastJudged_concat] at last
      split at last
      · cases last
      · next hne =>
        rw [Model.errorNumber?, hstate, if_neg fun h => hne h.2.1]
        have hnumber := h.number (hfull hc) hjs last invalid
        rwa [p.enter_errors] at hnumber

theorem follows : Follows Counts where
  keeps h := h.toKeeps
  refl := refl
  trans := trans
  write := write
  visit fore _ _ := visit fore

end Counts

end Progress

namespace Overlap

variable {schema : Value} {rule : Rule} {data : Tree} {config : ModelConfig} {hist : List Event}
  {s : Overlap} {c : Call} {r : Route} {options : ValidateOptions} {isOpen : String → Bool}
  {m : Model} {valid : Bool}

/-- A run at the root that commits everywhere leaves records of what it has judged only, and a place
that it has called invalid in the end has the number of this failure. -/
theorem judged_of_answer (compiled : compile .standard schema = .ok rule)
    (named : schema.Spelled Segment.Name) (before : Trace (fresh rule data config) hist s)
    (tree : Tree.Spelled Segment.Name s.model.tree) (root : Model.runTarget r options = [])
    (full : (options.withConfig s.model.config).onlyDirtyRefs = false)
    (answer : c.answer s.model r options isOpen = (m, .finished valid)) :
    ∃ js o n, Climbing [] js ∧
      (∀ q st, m.state? q = some st → ∃ a, lastJudged (js ++ [("/", o)]) q = some a ∧
        (st.status = .error → a.isInvalid = true)) ∧
      ∀ {before after q a}, js ++ [("/", o)] = before ++ (q, a) :: after →
        lastJudged after q = none → a.isInvalid = true →
          m.errorNumber? q = some (n + failuresIn before + 1) := by
  have builtIn := compile_isBuiltIn rfl compiled
  have hnumbered := (Numbered.fresh rule data config).trace before
  have hrule : s.model.rule = rule := (Rising.trace builtIn before).rule
  obtain ⟨js, said, t, hjs⟩ := c.judges_of_answer (hrule ▸ builtIn) root answer
  obtain ⟨p, hp, -, hs⟩ := hnumbered.answer_of_judges Progress.Counts.follows c hjs root isOpen
  rw [answer, Prod.mk.injEq] at hp
  obtain ⟨rfl, -⟩ := hp
  -- the walk of the rule goes from parents to children, over names only
  have hdescends := Rule.walk_descends (Call.evaluation s.model options) Route.isParent_child
    (compile_holds (fun k hk => absurd hk List.not_mem_nil) compiled)
  have hspelled := Rule.walk_spelled (Call.evaluation s.model options) Segment.digits_name
    (compile_made Value.spread_spelled named compiled)
  have hclimbing := (hjs.climbing (hrule ▸ hdescends .full [])
    (hrule ▸ hspelled .full [] fun s hs => nomatch hs) tree).1
  have hfore := hnumbered.progress_foremost c r options
  have hcommits : ∀ q, (c.progress s.model r options).commitsAt q = true := by
    intro q
    rw [Progress.commitsAt, c.progress_onlyDirtyRefs, full]
    rfl
  have hroot : (c.progress s.model r options).run.fromRoot = true := by
    rw [Run.fromRoot, c.progress_target, root]
    rfl
  have hfinish := hs.finish_state? hfore hroot (by simp)
  refine ⟨js, Outcome.merge [Outcome.silent, said], (c.progress s.model r options).model.errors,
    hclimbing, fun q st hst => ?_, fun {before after q a} split last invalid => ?_⟩
  · rw [hfinish] at hst
    split at hst
    · cases hst
    · next hjudged =>
      obtain ⟨a, ha⟩ := Option.ne_none_iff_exists'.1 hjudged
      refine ⟨a, ha, fun herror => ?_⟩
      obtain ⟨e, he, -⟩ := hs.settled q a ha (hcommits q)
      rw [hst, Option.some.injEq] at he
      subst he
      cases hi : a.isInvalid with
      | true => rfl
      | false => simp [State.settled, hi] at herror
  · have hjudged : lastJudged (js ++ [("/", Outcome.merge [Outcome.silent, said])]) q ≠ none := by
      rw [split, ← List.singleton_append, lastJudged_append, lastJudged_append, last]
      simp [lastJudged]
    have hnumber := hs.number hcommits split last invalid
    rw [Model.errorNumber?, hfinish, if_neg hjudged]
    exact hnumber

theorem Tallied.number_of_failing (h : Tallied s) {place : Route} {path : String}
    (failing : s.model.Failing place path) : ∃ n, s.model.errorNumber? path = some n := by
  obtain ⟨-, st, hst, herr⟩ := failing
  obtain ⟨n, hn⟩ := Option.isSome_iff_exists.1 ((h.sound path st (.onRecord hst)).failed herr)
  exact ⟨n, by rw [Model.errorNumber?, hst, Option.bind_some, hn]⟩

theorem Tallied.path_of_number (h : Tallied s) (p q : String) (n : Nat)
    (hp : s.model.errorNumber? p = some n) (hq : s.model.errorNumber? q = some n) : p = q := by
  obtain ⟨st, hst, hn⟩ := Option.bind_eq_some_iff.1 hp
  obtain ⟨st', hst', hn'⟩ := Option.bind_eq_some_iff.1 hq
  exact h.one p q st st' n (.onRecord hst) (.onRecord hst') hn hn'

/-- **Errors, deepest first.** Let the schema hold built-in keywords only, and let its keys and
those of the data be names that a path can lead over. Whatever earlier runs and the caller have left
on record, a run at the root that commits everywhere gives the deeper one of two places that fail
the smaller number. So the list of errors of a place holds those at or under it, none of them before
one that lies under it. If there are any, the first of them is the first error, and under it there
is no other. -/
theorem errors_deepest_first (compiled : compile .standard schema = .ok rule)
    (named : schema.Spelled Segment.Name) (before : Trace (fresh rule data config) hist s)
    (tree : Tree.Spelled Segment.Name s.model.tree) (root : Model.runTarget r options = [])
    (full : (options.withConfig s.model.config).onlyDirtyRefs = false)
    (answer : c.answer s.model r options isOpen = (m, .finished valid)) :
    (∀ p q, m.Failing Route.root p → m.Failing Route.root q → Path.isUnder p q = true →
      m.Earlier p q) ∧
    ∀ place : Route,
      (∀ path, path ∈ (m.errorsUnder place).map Route.text ↔ m.Failing place path) ∧
      ((m.errorsUnder place).map Route.text).Pairwise (fun p q => Path.isUnder q p = false) ∧
      (∀ path, m.Failing place path → ∃ first, (m.firstError? place).map Route.text = some first) ∧
      ∀ first ∈ (m.firstError? place).map Route.text,
        ((m.errorsUnder place).map Route.text).head? = some first ∧ m.Failing place first ∧
          ∀ path, m.Failing Route.root path → Path.isUnder path first = false := by
  obtain ⟨js, o, n, hclimbing, hjudged, hnumber⟩ :=
    judged_of_answer compiled named before tree root full answer
  have hearlier : ∀ p q, m.Failing Route.root p → m.Failing Route.root q →
      Path.isUnder p q = true → m.Earlier p q := by
    rintro p q ⟨-, st, hst, herr⟩ ⟨-, st', hst', herr'⟩ hunder
    obtain ⟨a, ha, hinvalid⟩ := hjudged p st hst
    obtain ⟨b, hb, hinvalid'⟩ := hjudged q st' hst'
    obtain ⟨xs, ys, zs, hsplit, hlast, hlast'⟩ := hclimbing.last_turns ha hb hunder
    have hp := hnumber hsplit hlast (hinvalid herr)
    rw [← List.cons_append, ← List.append_assoc] at hsplit
    have hq := hnumber hsplit hlast' (hinvalid' herr')
    refine ⟨_, _, hp, hq, ?_⟩
    have hone : failuresIn ((p, a) :: ys) = failuresIn ys + 1 := by
      simp [failuresIn, hinvalid herr]
    rw [failuresIn_append, hone]
    omega
  have hcanonical : ∀ path st, m.state? path = some st → Path.normalize path = path := by
    intro path st hst
    obtain ⟨a, ha, -⟩ := hjudged path st hst
    obtain ⟨xs, ys, hsplit, -⟩ := exists_split_of_lastJudged ha
    obtain ⟨q, hq, rfl, -⟩ := hclimbing.ascending hsplit
    exact Path.normalize_text hq
  obtain ⟨hist', after⟩ := before.after_answer answer
  have htallied := (Tallied.fresh rule data config).trace after
  refine ⟨hearlier, fun place => ?_⟩
  have hsorted := Model.pairwise_earlier (r := place)
    (fun path hpath => htallied.number_of_failing hpath) htallied.path_of_number
  have hmem : ∀ path, path ∈ ((m.failures place).mergeSort Model.errorOrder).map Prod.fst ↔
      m.Failing place path := by
    intro path
    rw [List.mem_map, Model.failing_iff]
    simp only [List.mem_mergeSort]
  have hanywhere : ∀ path, m.Failing place path → m.Failing Route.root path :=
    fun path h => ⟨Path.isAtOrUnder_root path, h.2⟩
  rw [Model.firstError?, ← List.head?_map, Model.errorsUnder_text hcanonical]
  refine ⟨hmem, hsorted.imp_of_mem fun {p q} hp hq h => ?_, fun path hpath => ?_,
    fun first hfirst => ?_⟩
  · refine Bool.eq_false_iff.2 fun hunder => ?_
    exact h.asymm (hearlier q p (hanywhere q ((hmem q).1 hq)) (hanywhere p ((hmem p).1 hp)) hunder)
  · have hne := List.ne_nil_of_mem ((hmem path).2 hpath)
    exact ⟨_, List.head?_eq_some_head hne⟩
  · obtain ⟨hlisted, hleast⟩ := (Model.head?_eq_some_iff hsorted).1 hfirst
    have hfailing := (hmem first).1 hlisted
    refine ⟨hfirst, hfailing, fun path hpath => Bool.eq_false_iff.2 fun hunder => ?_⟩
    have hdeeper := hearlier path first hpath (hanywhere first hfailing) hunder
    have hat : m.Failing place path :=
      ⟨Path.isAtOrUnder_of_isUnder_of hunder hfailing.1 place.text_ne_empty, hpath.2⟩
    exact hdeeper.asymm (hleast path ((hmem path).2 hat) hdeeper.ne)

/-- The schema of an object that has no `/a/b`, and the same once more as the branch of a
conjunction. -/
def emptiedSchema : Value :=
  .object [("allOf", .array [.object [fields]]), fields]
where
  fields : String × Value :=
    ("properties", .object [("a", .object [("properties", .object [("b", .bool false)])])])

/-- The rule of `emptiedSchema`. -/
def emptiedRule : Rule :=
  .node "#" [.leaf (.annotations none [] {}), .allOf
    [.node "#/allOf/0" [.leaf (.annotations none [] {}), fields "#/allOf/0/properties/a"] {} {}],
    fields "#/properties/a"] {} {}
where
  fields (location : String) : Check :=
    .properties [.mk "a" false (.node location [.leaf (.annotations none [] {}),
      .properties [.mk "b" false
        (.node (location ++ "/properties/b") [.leaf .never] {} {})]] {} {})]

theorem compile_emptiedSchema : compile .standard emptiedSchema = .ok emptiedRule := rfl

theorem emptiedSchema_named : emptiedSchema.Spelled Segment.Name := by
  have hp : Segment.Name "properties" := by decide
  have hfields : emptiedSchema.fields.2.Spelled Segment.Name :=
    .single (by decide) (.single hp (.single (by decide) (.bool false)))
  have hall : Value.Spelled Segment.Name (.array [.object [emptiedSchema.fields]]) :=
    .array (by decide) (List.forall_mem_singleton.2 (.single hp hfields))
  exact .object
    (List.forall_mem_cons.2 ⟨(by decide : Segment.Name "allOf"), List.forall_mem_singleton.2 hp⟩)
    (List.forall_mem_cons.2 ⟨hall, List.forall_mem_singleton.2 hfields⟩)

/-- Of `/`, `/a` and `/a/b`, which all fail, the deepest one is the first error. -/
theorem errors_deepest_first_emptied :
    ∃ m, Call.validate.answer (Model.ofRule emptiedRule
        (some (.object [("a", .object [("b", .int 1)])])) {}) [] {} (fun _ => true) =
        (m, .finished false) ∧
      (∀ path, path ∈ (m.errorsUnder []).map Route.text ↔ path ∈ ["/", "/a", "/a/b"]) ∧
      m.Earlier "/a/b" "/a" ∧ m.Earlier "/a" "/" ∧
      (m.firstError? []).map Route.text = some "/a/b" ∧
      ((m.errorsUnder []).map Route.text).head? = some "/a/b" := by
  obtain ⟨⟨m, result⟩, hx, hvalid, hlist⟩ : ∃ x, Call.validate.answer (Model.ofRule emptiedRule
        (some (.object [("a", .object [("b", .int 1)])])) {}) [] {} (fun _ => true) = x ∧
      x.2.valid? = some false ∧ (x.1.failures []).map Prod.fst = ["/", "/a", "/a/b"] :=
    ⟨_, rfl, by decide +kernel, by decide +kernel⟩
  obtain rfl : result = .finished false := RunResult.eq_of_valid? hvalid
  have hfailing : ∀ path, m.Failing Route.root path ↔ path ∈ ["/", "/a", "/a/b"] := by
    intro path
    rw [Model.failing_iff, ← List.mem_map, ← hlist]
    rfl
  have hdata : Tree.Spelled Segment.Name (some (.object [("a", .object [("b", .int 1)])])) :=
    Tree.spelled_some.2 (.single (by decide) (.single (by decide) (.number _)))
  obtain ⟨hearlier, hlists⟩ := errors_deepest_first compile_emptiedSchema emptiedSchema_named
    (.nil _) hdata rfl rfl hx
  obtain ⟨hmem, -, hsome, hfirst⟩ := hlists []
  have hearlier : ∀ p ∈ ["/", "/a", "/a/b"], ∀ q ∈ ["/", "/a", "/a/b"],
      Path.isUnder p q = true → m.Earlier p q :=
    fun p hp q hq => hearlier p q ((hfailing p).2 hp) ((hfailing q).2 hq)
  -- neither `/` nor `/a` is the first error, as `/a/b` lies under both
  obtain ⟨first, hf⟩ := hsome "/a/b" ((hfailing _).2 (by simp))
  obtain ⟨hhead, hfails, hdeepest⟩ := hfirst first hf
  have hunder := hdeepest "/a/b" ((hfailing _).2 (by simp))
  have hcase : first = "/a/b" := by
    have hne : ∀ path ∈ ["/", "/a", "/a/b"], Path.isUnder "/a/b" path = false → path = "/a/b" := by
      decide
    exact hne first ((hfailing first).1 hfails) hunder
  subst hcase
  exact ⟨m, hx, fun path => (hmem path).trans (hfailing path),
    hearlier _ (by simp) _ (by simp) (by decide), hearlier _ (by simp) _ (by simp) (by decide),
    hf, hhead⟩

end Overlap

end Conform
