import Conform.Proofs.BuiltIn
import Conform.Rule.Evaluation

/-!
# Failures travel up

What a rule says of a place heeds the places below: if the outcome of one of its visits is invalid,
so is its own. Keywords from outside may do otherwise, the built-in ones do not, and the folding of
outcomes keeps every failure.
-/

namespace Conform

namespace Outcome

theorem add_isInvalid (m o : Outcome) : (m.add o).isInvalid = (m.isInvalid || o.isInvalid) := by
  have hvalid : (m.add o).valid = if m.supersedes o then o.valid else m.valid := by
    unfold add
    split <;> rfl
  unfold isInvalid
  rw [hvalid]
  unfold supersedes
  rcases m.valid with - | - | - <;> rcases o.valid with - | - | - <;> simp

theorem merge_isInvalid (os : List Outcome) : (merge os).isInvalid = os.any isInvalid := by
  have hfold : ∀ m : Outcome, (os.foldl add m).isInvalid = (m.isInvalid || os.any isInvalid) := by
    induction os with
    | nil => simp
    | cons o os ih =>
      intro m
      rw [List.foldl_cons, ih, add_isInvalid, List.any_cons, Bool.or_assoc]
  exact hfold silent

theorem merge_isInvalid_iff (os : List Outcome) :
    (merge os).isInvalid = true ↔ ∃ o ∈ os, o.isInvalid = true := by
  rw [merge_isInvalid, List.any_eq_true]

theorem merge_silent_isInvalid (o : Outcome) : (merge [silent, o]).isInvalid = o.isInvalid := by
  simp [merge_isInvalid, show silent.isInvalid = false from rfl]

theorem passes_eq_false {o : Outcome} : o.passes = false ↔ o.isInvalid = true := by
  simp [passes]

theorem check_isInvalid (ok : Bool) (text : String) : (check ok text).isInvalid = !ok := by
  cases ok <;> rfl

end Outcome

namespace Walk

/-- Whether the outcome of the walk in full mode is invalid if `bad` holds or the outcome of a visit
is invalid, and so for the walks of all visits within. -/
def Heeds : Walk → Prop → Prop
  | done o, bad => bad → o.isInvalid = true
  | fail _, _ => True
  | read _ next, bad => ∀ v, (next v).Heeds bad
  | write _ _ next, bad => next.Heeds bad
  | await _ next, bad => next.Heeds bad
  | visit _ _ _ body next, bad =>
    (body .full).Heeds False ∧ ∀ o, (next o).Heeds (bad ∨ o.isInvalid = true)

theorem Heeds.of_imp {w : Walk} {b b' : Prop} (h : w.Heeds b) (hb : b' → b) : w.Heeds b' := by
  induction w generalizing b b' with
  | done o => exact fun hb' => h (hb hb')
  | fail e => trivial
  | read r next ih => exact fun v => ih v (h v) hb
  | write r v next ih => exact ih h hb
  | await g next ih => exact ih h hb
  | visit r d hint body next _ ih => exact ⟨h.1, fun o => ih o (h.2 o) (Or.imp_left hb)⟩

/-- What was bad before the first walk, and what the first walk says, reaches the second. -/
theorem Heeds.andThen {w : Walk} {b c : Prop} {k : Outcome → Walk} (h : w.Heeds b)
    (hk : ∀ o, (k o).Heeds (c ∨ o.isInvalid = true)) : (w.andThen k).Heeds (c ∨ b) := by
  induction w generalizing b with
  | done o => exact (hk o).of_imp (Or.imp_right h)
  | fail e => trivial
  | read r next ih => exact fun v => ih v (h v)
  | write r v next ih => exact ih h
  | await g next ih => exact ih h
  | visit r d hint body next _ ih =>
    exact ⟨h.1, fun o => (ih o (h.2 o)).of_imp or_assoc.1⟩

/-- A walk on a copy visits nothing, and only what comes after it counts. -/
theorem Heeds.shield {base : Route} {b : Prop} {k : Outcome → Tree → Walk} (w : Walk)
    (hk : ∀ o t, (k o t).Heeds b) (t : Tree) : (w.shield base k t).Heeds b := by
  induction w generalizing k t with
  | done o => exact hk o t
  | fail e => trivial
  | read r next ih =>
    unfold Walk.shield
    split
    · exact ih _ hk t
    · exact fun v => ih v hk t
  | write r v next ih =>
    unfold Walk.shield
    split
    · dsimp only
      split
      · trivial
      · exact ih hk _
    · exact ih hk t
  | await g next ih => exact ih hk t
  | visit r d hint body next ihb ihn =>
    exact ihb .full (fun o t => ihn _ hk t) t

theorem Heeds.probe {base : Route} {b : Prop} {k : Outcome → Walk} (w : Walk)
    (hk : ∀ o, (k o).Heeds b) : (w.probe base k).Heeds b :=
  fun v => Heeds.shield w (fun o _ => hk o) v

end Walk

/-- Whether the walk of a nested rule heeds its visits at every place. -/
def Walker.Heeds (w : Walker) : Prop := ∀ route, (w.walk .full route).Heeds False

namespace Leaf

theorem removing_heeds (route : Route) (ks : List String) : (removing route ks).Heeds False := by
  induction ks with
  | nil => exact False.elim
  | cons k ks ih => exact ih

/-- A leaf visits nothing. -/
theorem walk_heeds (options : EvalOptions) (route : Route) (l : Leaf) :
    (l.walk options route).Heeds False := by
  have hjudging : ∀ judge, (judging judge route).Heeds False := by
    intro judge v
    cases v <;> exact False.elim
  cases l with
  | annotations default filters constant =>
    intro v
    dsimp only
    split <;> exact False.elim
  | type kinds =>
    intro v
    cases v with
    | none => exact False.elim
    | some v =>
      dsimp only
      split
      · exact False.elim
      · split
        · split <;> exact False.elim
        · exact False.elim
  | present needed =>
    cases needed with
    | false => exact False.elim
    | true =>
      intro v
      dsimp only
      split
      · exact False.elim
      · exact False.elim
      · split
        · exact False.elim
        · split <;> exact False.elim
      · exact False.elim
  | additionalKeys known allowed =>
    cases allowed with
    | true => exact False.elim
    | false =>
      intro v
      cases v with
      | none => exact False.elim
      | some v =>
        dsimp only
        split
        · exact False.elim
        · split
          · exact removing_heeds route _
          · exact False.elim
  | never => exact False.elim
  | _ => exact hjudging _

end Leaf

namespace Check

open Walk

theorem visitAll_heeds (message : String) (ok : Bool) {vs : List Visit}
    (h : ∀ v ∈ vs, v.walker.Heeds) : (visitAll message ok vs).Heeds (ok = false) := by
  induction vs generalizing ok with
  | nil =>
    intro hok
    rw [Outcome.check_isInvalid, hok]
    rfl
  | cons v vs ih =>
    refine ⟨h v List.mem_cons_self v.route, fun o => ?_⟩
    refine (ih (ok && o.passes) fun v hv => h v (List.mem_cons_of_mem _ hv)).of_imp ?_
    rintro (hok | ho)
    · rw [hok, Bool.false_and]
    · rw [Outcome.passes_eq_false.2 ho, Bool.and_false]

theorem propertiesWalk_heeds {visits : List Visit} (h : ∀ v ∈ visits, v.walker.Heeds)
    (route : Route) : (propertiesWalk visits route).Heeds False := by
  intro v
  dsimp only
  split
  · exact (visitAll_heeds _ true h).of_imp False.elim
  · exact (visitAll_heeds _ true h).of_imp False.elim
  · exact False.elim

theorem additionalWalk_heeds (known : List String) {w : Walker} (h : w.Heeds) (route : Route) :
    (additionalWalk known w route).Heeds False := by
  intro v
  dsimp only
  split
  · exact False.elim
  · refine (visitAll_heeds _ true fun v hv => ?_).of_imp False.elim
    obtain ⟨k, -, rfl⟩ := List.mem_map.1 hv
    exact h

theorem itemsWalk_heeds {walkers : Nat → List Walker} (h : ∀ n, ∀ w ∈ walkers n, w.Heeds)
    (route : Route) : (itemsWalk walkers route).Heeds False := by
  intro v
  dsimp only
  split
  · next vs =>
    refine (visitAll_heeds _ true fun v hv => ?_).of_imp False.elim
    obtain ⟨i, hi, rfl⟩ := List.mem_mapIdx.1 hv
    exact h _ _ (List.getElem_mem hi)
  · exact False.elim

theorem allOfWalk_heeds (route : Route) {ws : List Walker} (h : ∀ w ∈ ws, w.Heeds)
    (os : List Outcome) :
    (allOfWalk .full route os ws).Heeds (∃ o ∈ os, o.isInvalid = true) := by
  induction ws generalizing os with
  | nil => exact (Outcome.merge_isInvalid_iff os).2
  | cons w ws ih =>
    refine ((h w List.mem_cons_self route).andThen (c := ∃ o ∈ os, o.isInvalid = true)
      fun o => ?_).of_imp .inl
    refine (ih (fun w hw => h w (List.mem_cons_of_mem _ hw)) (os ++ [o])).of_imp ?_
    rintro (⟨o', ho, hi⟩ | hi)
    · exact ⟨o', List.mem_append_left _ ho, hi⟩
    · exact ⟨o, List.mem_append_right _ List.mem_cons_self, hi⟩

theorem anyOfWalk_heeds (route : Route) {ws : List Walker} (h : ∀ w ∈ ws, w.Heeds) :
    (anyOfWalk .full route ws).Heeds False := by
  induction ws with
  | nil => exact False.elim
  | cons w ws ih =>
    refine Heeds.probe _ fun o => ?_
    split
    · exact h w List.mem_cons_self route
    · exact ih fun w hw => h w (List.mem_cons_of_mem _ hw)

theorem oneOfWalk_heeds (route : Route) {matched ws : List Walker} (hm : ∀ w ∈ matched, w.Heeds)
    (h : ∀ w ∈ ws, w.Heeds) : (oneOfWalk .full route matched ws).Heeds False := by
  induction ws generalizing matched with
  | nil =>
    unfold oneOfWalk
    split
    · exact False.elim
    · exact hm _ List.mem_cons_self route
    · exact False.elim
    · next he => cases he
  | cons w ws ih =>
    rw [oneOfWalk]
    refine Heeds.probe _ fun o => ih ?_ fun w hw => h w (List.mem_cons_of_mem _ hw)
    split
    · intro w' hw'
      rcases List.mem_append.1 hw' with hw' | hw'
      · exact hm w' hw'
      · rw [List.mem_singleton.1 hw']
        exact h w List.mem_cons_self
    · exact hm

theorem excludedWalk_heeds (w : Walker) (route : Route) : (excludedWalk w route).Heeds False :=
  Heeds.probe _ fun _ => False.elim

theorem conditionalWalk_heeds (route : Route) (condition : Walker) {met unmet : Option Walker}
    (hm : ∀ w ∈ met, w.Heeds) (hu : ∀ w ∈ unmet, w.Heeds) :
    (conditionalWalk .full route condition met unmet).Heeds False := by
  refine Heeds.probe _ fun o => ?_
  split
  · next w hw =>
    split at hw
    · exact hm w hw route
    · exact hu w hw route
  · exact False.elim

/-- Every check that runs has its outcome among those that are handed on. -/
theorem runAll_heeds (route : Route) {finish : List Outcome → Walk}
    (hfinish : ∀ os, (finish os).Heeds (∃ o ∈ os, o.isInvalid = true)) {cs : List Ready}
    (h : ∀ c ∈ cs, (c.walk .full route).Heeds False) (os : List Outcome) :
    (runAll .full route finish os cs).Heeds (∃ o ∈ os, o.isInvalid = true) := by
  induction cs generalizing os with
  | nil => exact hfinish os
  | cons c cs ih =>
    rw [runAll_full]
    refine ((h c List.mem_cons_self).andThen (c := ∃ o ∈ os, o.isInvalid = true)
      fun o => ?_).of_imp .inl
    refine (ih (fun c hc => h c (List.mem_cons_of_mem _ hc)) _).of_imp ?_
    rintro (⟨o', ho, hi⟩ | hi)
    · exact ⟨o', List.mem_append_left _ ho, hi⟩
    · exact ⟨o.attributed c.keyword, List.mem_append_right _ List.mem_cons_self, hi⟩

end Check

section

variable (options : EvalOptions)

mutual

/-- The walk of a rule of built-in keywords heeds its visits. -/
theorem Rule.walk_heeds (r : Rule) (h : r.isBuiltIn = true) (route : Route) :
    (r.walk options .full route).Heeds False := by
  match r with
  | .node _ checks messages _ =>
    rw [Rule.walk]
    rw [Rule.isBuiltIn] at h
    have hfinish : ∀ os, (Walk.done (messages.resolve options.messages (Outcome.merge os))).Heeds
        (∃ o ∈ os, o.isInvalid = true) := fun os => (Outcome.merge_isInvalid_iff os).2
    exact (Check.runAll_heeds route hfinish (readyChecks_heed checks h route) []).of_imp False.elim

theorem Check.walk_heeds (c : Check) (h : c.isBuiltIn = true) (route : Route) :
    (c.walk options .full route).Heeds False := by
  match c with
  | .leaf l =>
    rw [Check.walk]
    exact l.walk_heeds options route
  | .properties children =>
    rw [Check.walk]
    exact Check.propertiesWalk_heeds (propertyVisits_heed children h route) route
  | .additional known rule =>
    rw [Check.walk]
    exact Check.additionalWalk_heeds known (fun route => rule.walk_heeds h route) route
  | .items rule =>
    rw [Check.walk]
    refine Check.itemsWalk_heeds (fun n w hw => ?_) route
    rw [List.eq_of_mem_replicate hw]
    exact fun route => rule.walk_heeds h route
  | .tuple rules =>
    rw [Check.walk]
    exact Check.itemsWalk_heeds
      (fun n w hw => walkersOf_heed rules h w (List.mem_of_mem_take hw)) route
  | .allOf branches =>
    rw [Check.walk]
    exact (Check.allOfWalk_heeds route (walkersOf_heed branches h) []).of_imp False.elim
  | .anyOf branches =>
    rw [Check.walk]
    exact Check.anyOfWalk_heeds route (walkersOf_heed branches h)
  | .oneOf branches =>
    rw [Check.walk]
    refine Check.oneOfWalk_heeds route (fun w hw => ?_) (walkersOf_heed branches h)
    cases hw
  | .excluded rule =>
    rw [Check.walk]
    exact Check.excludedWalk_heeds _ route
  | .conditional condition met unmet =>
    rw [Check.walk]
    rw [Check.isBuiltIn, Bool.and_eq_true, Bool.and_eq_true] at h
    exact Check.conditionalWalk_heeds route _ (walkerOf?_heeds met h.1.2)
      (walkerOf?_heeds unmet h.2)
  | .custom .. =>
    rw [Check.isBuiltIn] at h
    cases h

theorem readyChecks_heed (cs : List Check) (h : checksBuiltIn cs = true) (route : Route) :
    ∀ c ∈ readyChecks options cs, (c.walk .full route).Heeds False := by
  match cs with
  | [] =>
    intro c hc
    cases hc
  | c :: cs =>
    rw [checksBuiltIn, Bool.and_eq_true] at h
    intro ready hr
    rw [readyChecks] at hr
    rcases List.mem_cons.1 hr with rfl | hr
    · exact c.walk_heeds h.1 route
    · exact readyChecks_heed cs h.2 route ready hr

theorem propertyVisits_heed (ps : List Property) (h : propertiesBuiltIn ps = true)
    (route : Route) : ∀ v ∈ propertyVisits options route ps, v.walker.Heeds := by
  match ps with
  | [] =>
    intro v hv
    cases hv
  | .mk key required rule :: ps =>
    rw [propertiesBuiltIn, Bool.and_eq_true] at h
    intro v hv
    rw [propertyVisits] at hv
    rcases List.mem_cons.1 hv with rfl | hv
    · exact fun route => rule.walk_heeds h.1 route
    · exact propertyVisits_heed ps h.2 route v hv

theorem walkersOf_heed (rs : List Rule) (h : rulesBuiltIn rs = true) :
    ∀ w ∈ walkersOf options rs, w.Heeds := by
  match rs with
  | [] =>
    intro w hw
    cases hw
  | r :: rs =>
    rw [rulesBuiltIn, Bool.and_eq_true] at h
    intro w hw
    rw [walkersOf] at hw
    rcases List.mem_cons.1 hw with rfl | hw
    · exact fun route => r.walk_heeds h.1 route
    · exact walkersOf_heed rs h.2 w hw

theorem walkerOf?_heeds (r : Option Rule) (h : optionBuiltIn r = true) :
    ∀ w ∈ walkerOf? options r, w.Heeds := by
  match r with
  | none =>
    intro w hw
    cases hw
  | some r =>
    intro w hw
    rw [walkerOf?, Option.mem_some_iff] at hw
    subst hw
    exact fun route => r.walk_heeds h route

end

end

end Conform
