import Conform.Proofs.Enclosed
import Conform.Proofs.Tours

/-!
# Flags on a tour

A rule is flagged if it depends on other places itself or a rule nested in it does. On a tour the
flags can be followed to every place that depends on others: where one is visited, the visits around
it are all of flagged rules.
-/

namespace Conform

/-- Whether a visit is part of another: that visit itself, or one that is made within it. -/
inductive Tour.Within (x : Tour) : Tour → Prop where
  | self : Within x x
  | step {s s' : Tour} (mem : s' ∈ s.within) (inner : Within x s') : Within x s

theorem Tour.Within.of_mem {x s s' : Tour} (h : x.Within s) (hs : s' ∈ x.within) : s'.Within s := by
  induction h with
  | self => exact .step hs .self
  | step mem _ ih => exact .step mem ih

/-- Whether a visit under a flag raises it if its rule is flagged, its rule is flagged if it depends
on other places, and the visits within are like that. -/
inductive Tour.Flagged : Bool → Tour → Prop where
  | mk {flag : Bool} {s : Tour} (raised : s.declaration.declaresDependents = true → flag = true)
      (own : s.declaration.dependsOn ≠ [] → s.declaration.declaresDependents = true)
      (within : ∀ s' ∈ s.within, Tour.Flagged s.declaration.declaresDependents s') :
      Tour.Flagged flag s

namespace Tour.Flagged

variable {flag : Bool} {s x : Tour}

theorem mono {flag' : Bool} (h : s.Flagged flag) (hflag : flag = true → flag' = true) :
    s.Flagged flag' := by
  cases h with
  | mk raised own within => exact .mk (fun hd => hflag (raised hd)) own within

/-- **Flags lead to what depends on others.** -/
theorem of_within (h : s.Flagged flag) (hx : x.Within s) (depends : x.declaration.dependsOn ≠ []) :
    s.declaration.declaresDependents = true := by
  induction hx generalizing flag with
  | self =>
    cases h with
    | mk _ own => exact own depends
  | step mem _ ih =>
    cases h with
    | mk _ _ within =>
      have hinner := within _ mem
      cases hinner with
      | mk raised => exact raised (ih (within _ mem))

end Tour.Flagged

/-- Whether a walker raises a flag if its rule is flagged, and all that its tours visit is flagged
accordingly. -/
structure Walker.Raises (t : Tree) (flag : Bool) (w : Walker) : Prop where
  raised : w.declaration.declaresDependents = true → flag = true
  own : w.declaration.dependsOn ≠ [] → w.declaration.declaresDependents = true
  within : ∀ ⦃route o ts⦄, (w.walk .full route).Tours t o ts →
    ∀ s ∈ ts, s.Flagged w.declaration.declaresDependents

namespace Walker.Raises

variable {t : Tree} {flag : Bool} {w : Walker}

/-- Applied at the place of the rule around it. -/
theorem applied (h : w.Raises t flag) {route : Route} {o : Outcome} {ts : List Tour}
    (hw : (w.walk .full route).Tours t o ts) : ∀ s ∈ ts, s.Flagged flag :=
  fun s hs => (h.within hw s hs).mono h.raised

theorem of_flag (h : w.Raises t w.declaration.declaresDependents)
    (hflag : w.declaration.declaresDependents = true → flag = true) : w.Raises t flag :=
  ⟨hflag, h.own, h.within⟩

end Walker.Raises

namespace Check

open Walk

variable {t : Tree} {flag : Bool} {route : Route} {o : Outcome} {ts : List Tour}

theorem visitAll_flagged {message : String} {ok : Bool} {vs : List Visit}
    (hvs : ∀ v ∈ vs, v.walker.Raises t flag) (h : (visitAll message ok vs).Tours t o ts) :
    ∀ s ∈ ts, s.Flagged flag := by
  induction vs generalizing ok ts with
  | nil => cases h; exact fun s hs => (by cases hs)
  | cons v vs ih =>
    obtain ⟨hv, hvs⟩ := List.forall_mem_cons.1 hvs
    cases h with
    | visit inner rest =>
      exact List.forall_mem_cons.2 ⟨.mk hv.raised hv.own (hv.within inner), ih hvs rest⟩

theorem propertiesWalk_flagged {visits : List Visit} (hvs : ∀ v ∈ visits, v.walker.Raises t flag)
    (h : (propertiesWalk visits route).Tours t o ts) : ∀ s ∈ ts, s.Flagged flag := by
  cases h with
  | read rest =>
    revert rest
    dsimp only
    split
    · exact visitAll_flagged hvs
    · exact visitAll_flagged hvs
    · intro rest
      cases rest
      exact fun s hs => (by cases hs)

theorem additionalWalk_flagged {known : List String} {w : Walker} (hw : w.Raises t flag)
    (h : (additionalWalk known w route).Tours t o ts) : ∀ s ∈ ts, s.Flagged flag := by
  cases h with
  | read rest =>
    revert rest
    cases t.get? route with
    | none =>
      intro rest
      cases rest
      exact fun s hs => (by cases hs)
    | some v =>
      refine visitAll_flagged fun u hu => ?_
      obtain ⟨k, -, rfl⟩ := List.mem_map.1 hu
      exact hw

theorem itemsWalk_flagged {walkers : Nat → List Walker}
    (hws : ∀ n, ∀ w ∈ walkers n, w.Raises t flag) (h : (itemsWalk walkers route).Tours t o ts) :
    ∀ s ∈ ts, s.Flagged flag := by
  cases h with
  | read rest =>
    revert rest
    dsimp only
    split
    · refine visitAll_flagged fun u hu => ?_
      obtain ⟨i, hi, rfl⟩ := List.mem_mapIdx.1 hu
      exact hws _ _ (List.getElem_mem hi)
    · intro rest
      cases rest
      exact fun s hs => (by cases hs)

theorem allOfWalk_flagged {os : List Outcome} {ws : List Walker} (hws : ∀ w ∈ ws, w.Raises t flag)
    (h : (allOfWalk .full route os ws).Tours t o ts) : ∀ s ∈ ts, s.Flagged flag := by
  induction ws generalizing os ts with
  | nil => cases h; exact fun s hs => (by cases hs)
  | cons w ws ih =>
    obtain ⟨hw, hws⟩ := List.forall_mem_cons.1 hws
    obtain ⟨o₁, ts₁, ts₂, rfl, hfirst, hrest⟩ := h.andThen
    exact List.forall_mem_append.2 ⟨hw.applied hfirst, ih hws hrest⟩

theorem anyOfWalk_flagged {ws : List Walker} (hws : ∀ w ∈ ws, w.Raises t flag)
    (h : (anyOfWalk .full route ws).Tours t o ts) : ∀ s ∈ ts, s.Flagged flag := by
  induction ws with
  | nil => cases h; exact fun s hs => (by cases hs)
  | cons w ws ih =>
    obtain ⟨hw, hws⟩ := List.forall_mem_cons.1 hws
    obtain ⟨o₁, hk, -⟩ := Walk.Tours.of_probe h
    split at hk
    · exact hw.applied hk
    · exact ih hws hk

theorem oneOfWalk_flagged {matched ws : List Walker} (hm : ∀ w ∈ matched, w.Raises t flag)
    (hws : ∀ w ∈ ws, w.Raises t flag) (h : (oneOfWalk .full route matched ws).Tours t o ts) :
    ∀ s ∈ ts, s.Flagged flag := by
  induction ws generalizing matched with
  | nil =>
    match matched with
    | [] => cases h; exact fun s hs => (by cases hs)
    | [w] => exact (hm w List.mem_cons_self).applied h
    | w :: w' :: rest => cases h; exact fun s hs => (by cases hs)
  | cons w ws ih =>
    obtain ⟨hw, hws⟩ := List.forall_mem_cons.1 hws
    rw [oneOfWalk] at h
    obtain ⟨o₁, hk, -⟩ := h.of_probe
    refine ih ?_ hws hk
    split
    · exact List.forall_mem_append.2 ⟨hm, List.forall_mem_singleton.2 hw⟩
    · exact hm

theorem conditionalWalk_flagged {condition : Walker} {met unmet : Option Walker}
    (hm : ∀ w ∈ met, w.Raises t flag) (hu : ∀ w ∈ unmet, w.Raises t flag)
    (h : (conditionalWalk .full route condition met unmet).Tours t o ts) :
    ∀ s ∈ ts, s.Flagged flag := by
  obtain ⟨o₁, hk, -⟩ := Walk.Tours.of_probe h
  have hchosen : ∀ w ∈ (if o₁.passes then met else unmet), w.Raises t flag := by
    split
    · exact hm
    · exact hu
  split at hk
  · next w hw => exact (hchosen w hw).applied hk
  · cases hk
    exact fun s hs => (by cases hs)

theorem runAll_flagged {f : List Outcome → Outcome} {os : List Outcome} {cs : List Ready}
    (hcs : ∀ c ∈ cs, ∀ ⦃o ts⦄, (c.walk .full route).Tours t o ts → ∀ s ∈ ts, s.Flagged flag)
    (h : (runAll .full route (fun os => done (f os)) os cs).Tours t o ts) :
    ∀ s ∈ ts, s.Flagged flag := by
  induction cs generalizing os ts with
  | nil => cases h; exact fun s hs => (by cases hs)
  | cons c cs ih =>
    obtain ⟨hc, hcs⟩ := List.forall_mem_cons.1 hcs
    rw [runAll_full] at h
    obtain ⟨o₁, ts₁, ts₂, rfl, hfirst, hrest⟩ := h.andThen
    exact List.forall_mem_append.2 ⟨hc hfirst, ih hcs hrest⟩

end Check

section

variable (options : EvalOptions) (t : Tree)

/-- Where flags are collected, the walker of a rule raises the flag of a check that holds it. -/
theorem raises_nesting : Nesting (fun _ => True)
    (fun r => r.Collects → (r.walker options).Raises t r.declaresDependents)
    (fun c => (∀ x ∈ c.rules, x.Collects) → ∀ route o ts,
      (c.walk options .full route).Tours t o ts → ∀ s ∈ ts, s.Flagged c.declaresDependents) where
  node location checks messages declaration h collects := by
    refine ⟨id, fun hd => collects.flagged_of_dependsOn hd, fun route o ts hr s hs => ?_⟩
    simp only [Rule.walker] at hr
    rw [Rule.walk, readyChecks_eq_map] at hr
    refine Check.runAll_flagged (List.forall_mem_map.2 fun c hc o ts hts s hs => ?_) hr s hs
    have hrules : ∀ x ∈ c.rules, x.Collects := fun x hx =>
      collects.of_mem (List.mem_flatMap.2 ⟨c, hc, hx⟩)
    exact (h c hc hrules route o ts hts s hs).mono (collects.flagged_of_check hc)
  leaf l _ route o ts h := by
    rw [Check.walk] at h
    rw [l.walk_tours h]
    exact fun s hs => (by cases hs)
  properties children h collects route o ts hr := by
    rw [Check.walk, propertyVisits_eq_map] at hr
    refine Check.propertiesWalk_flagged (List.forall_mem_map.2 fun p hp => ?_) hr
    obtain ⟨key, required, rule⟩ := p
    have hmem : rule ∈ (Check.properties children).rules := List.mem_map.2 ⟨_, hp, rfl⟩
    exact ((h key required rule hp).2 (collects rule hmem)).of_flag
      (Check.declaresDependents_of_mem hmem)
  additional keys rule h collects route o ts hr := by
    rw [Check.walk] at hr
    exact Check.additionalWalk_flagged ((h (collects rule List.mem_cons_self)).of_flag
      (Check.declaresDependents_of_mem List.mem_cons_self)) hr
  items rule h collects route o ts hr := by
    rw [Check.walk] at hr
    refine Check.itemsWalk_flagged (fun n w hw => ?_) hr
    rw [List.eq_of_mem_replicate hw]
    exact (h (collects rule List.mem_cons_self)).of_flag
      (Check.declaresDependents_of_mem List.mem_cons_self)
  tuple rules h collects route o ts hr := by
    rw [Check.walk, walkersOf_eq_map] at hr
    exact Check.itemsWalk_flagged (fun n w hw => List.forall_mem_map.2
      (fun r hr => (h r hr (collects r hr)).of_flag (Check.declaresDependents_of_mem hr)) w
      (List.mem_of_mem_take hw)) hr
  allOf branches h collects route o ts hr := by
    rw [Check.walk, walkersOf_eq_map] at hr
    exact Check.allOfWalk_flagged (List.forall_mem_map.2 fun r hr =>
      (h r hr (collects r hr)).of_flag (Check.declaresDependents_of_mem hr)) hr
  anyOf branches h collects route o ts hr := by
    rw [Check.walk, walkersOf_eq_map] at hr
    exact Check.anyOfWalk_flagged (List.forall_mem_map.2 fun r hr =>
      (h r hr (collects r hr)).of_flag (Check.declaresDependents_of_mem hr)) hr
  oneOf branches h collects route o ts hr := by
    rw [Check.walk, walkersOf_eq_map] at hr
    exact Check.oneOfWalk_flagged (fun w hw => (by cases hw)) (List.forall_mem_map.2 fun r hr =>
      (h r hr (collects r hr)).of_flag (Check.declaresDependents_of_mem hr)) hr
  excluded rule h collects route o ts hr := by
    rw [Check.walk] at hr
    rw [Check.excludedWalk_tours hr]
    exact fun s hs => (by cases hs)
  conditional condition met unmet hc hm hu collects route o ts hr := by
    rw [Check.walk, walkerOf?_eq_map, walkerOf?_eq_map] at hr
    have hbranch : ∀ r, r ∈ met ∨ r ∈ unmet →
        r ∈ (Check.conditional condition met unmet).rules := by
      intro r hr
      simpa [Check.rules] using .inr hr
    refine Check.conditionalWalk_flagged (fun w hw => ?_) (fun w hw => ?_) hr
    · obtain ⟨r, hr, rfl⟩ := Option.map_eq_some_iff.1 hw
      have hmem := hbranch r (.inl hr)
      exact (hm r hr (collects r hmem)).of_flag (Check.declaresDependents_of_mem hmem)
    · obtain ⟨r, hr, rfl⟩ := Option.map_eq_some_iff.1 hw
      have hmem := hbranch r (.inr hr)
      exact (hu r hr (collects r hmem)).of_flag (Check.declaresDependents_of_mem hmem)

/-- **Flags are raised all the way up.** -/
theorem Rule.walker_raises {r : Rule} (h : r.isBuiltIn = true) (collects : r.Collects) :
    (r.walker options).Raises t r.declaresDependents :=
  (raises_nesting options t).rule (r.built_of_isBuiltIn h) collects

end

end Conform
