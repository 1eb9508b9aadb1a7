import Conform.Proofs.Keywords

/-!
# Flags that are collected

While the keywords of a node are compiled, every schema that one of them asks for raises the flag of
the node if its rule is flagged, and nothing lowers the flag again. So whatever keywords there are,
the flag that a rule has been given says whether its node depends on other places or one of the
rules that it holds is flagged.
-/

namespace Conform

namespace Compiling

variable {α β : Type} {x : Compiling α} {f : α → Compiling β} {a : α} {b : β} {flag flag' : Bool}

/-- The compilation raises the flag of the node for each of the rules in what it comes to that is
flagged, and for nothing else. -/
structure Collects (rules : α → List Rule) (x : Compiling α) : Prop where
  raised : ∀ {flag flag' a}, x.run flag = .ok (a, flag') →
    flag' = (flag || (rules a).any Rule.declaresDependents)

namespace Collects

variable {rules : α → List Rule} {rules' : β → List Rule}

theorem pure (h : rules a = []) : Collects rules (Pure.pure a) where
  raised ha := by
    cases ha
    rw [h, List.any_nil, Bool.or_false]

theorem lift {x : Except CompileError α} (h : ∀ a, x = .ok a → rules a = []) :
    Collects rules (liftM x) where
  raised ha := by
    obtain ⟨hx, rfl⟩ := run_of_lift ha
    rw [h _ hx, List.any_nil, Bool.or_false]

theorem throw (e : CompileError) : Collects rules (MonadExcept.throw e) where
  raised h := nomatch h

theorem nest (compiled : Except CompileError Rule) :
    Collects (fun r => [r]) (Compiling.nest compiled) where
  raised hr := by
    rw [List.any_cons, List.any_nil, Bool.or_false]
    exact (run_of_nest hr).2

theorem map {f : α → β} (hx : x.Collects rules) (h : ∀ a, rules' (f a) = rules a) :
    Collects rules' (f <$> x) where
  raised hb := by
    obtain ⟨a, ha, rfl⟩ := run_of_map hb
    rw [h]
    exact hx.raised ha

/-- What the first step collects and what the second one does. -/
theorem both {γ : Type} {y : Compiling β} {join : α → β → γ} {joined : γ → List Rule}
    (hx : x.Collects rules) (hy : y.Collects rules')
    (h : ∀ a b, joined (join a b) = rules a ++ rules' b) :
    Collects joined (do
      let a ← x
      let b ← y
      return join a b) where
  raised hc := by
    obtain ⟨a, between, ha, hc⟩ := run_of_bind hc
    obtain ⟨b, after, hb, hc⟩ := run_of_bind hc
    cases hc
    rw [hy.raised hb, hx.raised ha, h, List.any_append, Bool.or_assoc]

theorem mapM {f : β → Compiling α} {bs : List β} (h : ∀ b, (f b).Collects rules) :
    Collects (List.flatMap rules) (bs.mapM f) := by
  induction bs with
  | nil => exact .pure rfl
  | cons b bs ih =>
    rw [List.mapM_cons]
    exact (h b).both ih fun a as => List.flatMap_cons

end Collects

end Compiling

/-- However a payload is read, the rules that this gives raise the flag. -/
structure Nested.Collects (n : Nested) : Prop where
  whole : ∀ location, (n.whole location).Collects fun r => [r]
  items : ∀ location, (n.items location).Collects id
  fields : ∀ location, (n.fields location).Collects (List.map Prod.snd)
  field : ∀ name location, (n.field name location).Collects fun r => [r]

namespace Compile

variable {s : Site} {payload : Value} {nested : Nested} {c : Check}

open Compiling

theorem invalid_collects {α : Type} {rules : α → List Rule} (expected : String) :
    Collects rules (liftM (s.invalid expected : Except CompileError α)) := by
  refine .lift fun a ha => ?_
  cases ha

theorem leaf_collects {x : Except CompileError Check} {P : Leaf → Prop}
    (h : ∀ {c}, x = .ok c → ∃ l, c = .leaf l ∧ P l) : Collects Check.rules (liftM x) := by
  refine .lift fun c hc => ?_
  obtain ⟨l, rfl, -⟩ := h hc
  rfl

theorem propertiesCheck_collects (hn : nested.Collects) :
    (propertiesCheck s payload nested).Collects Check.rules := by
  unfold propertiesCheck
  split
  · refine (hn.fields _).map fun rules => ?_
    rw [Check.rules, List.map_map]
    rfl
  · exact invalid_collects _

theorem additionalCheck_collects (hn : nested.Collects) :
    (additionalCheck s payload nested).Collects Check.rules := by
  unfold additionalCheck
  split
  · exact .pure rfl
  · exact (hn.whole _).map fun rule => rfl
  · exact invalid_collects _

theorem itemsCheck_collects (hn : nested.Collects) :
    (itemsCheck s payload nested).Collects Check.rules := by
  unfold itemsCheck
  split
  · exact (hn.items _).map fun rules => rfl
  · exact (hn.whole _).map fun rule => rfl
  · exact (hn.whole _).map fun rule => rfl
  · exact invalid_collects _

theorem branches_collects (hn : nested.Collects) : (branches s payload nested).Collects id := by
  unfold branches
  split
  · exact hn.items _
  · exact invalid_collects _

theorem conditionalCheck_collects (hn : nested.Collects)
    (hs : ∀ key, (s.sibling key).Collects Option.toList) :
    (conditionalCheck s nested).Collects Check.rules where
  raised h := by
    obtain ⟨condition, _, hc, h⟩ := run_of_bind h
    obtain ⟨met, _, hm, h⟩ := run_of_bind h
    obtain ⟨unmet, _, hu, h⟩ := run_of_bind h
    cases h
    rw [(hs _).raised hu, (hs _).raised hm, (hn.whole _).raised hc]
    simp [Check.rules, Bool.or_assoc]

theorem customCheck_collects (hn : nested.Collects) (k : Keyword) :
    (customCheck s payload nested k).Collects Check.rules := by
  unfold customCheck
  split
  · exact invalid_collects _
  · next names _ =>
    refine ⟨fun h => ?_⟩
    obtain ⟨rules, _, hr, h⟩ := run_of_bind h
    have hraised := (Collects.mapM fun name => hn.field name s.location).raised hr
    rw [List.flatMap_singleton'] at hraised
    split at h
    · exact nomatch h
    · cases h
      exact hraised

theorem builtInCheck_collects (hn : nested.Collects)
    (hs : ∀ key, (s.sibling key).Collects Option.toList) (k : BuiltIn) :
    (builtInCheck s payload nested k).Collects Check.rules := by
  cases k with
  | type => exact leaf_collects typeCheck_makes
  | enum => exact leaf_collects enumCheck_makes
  | const => exact .pure rfl
  | bound b => exact leaf_collects boundCheck_makes
  | length side | itemCount side =>
    refine .lift fun c hc => ?_
    obtain ⟨n, -, rfl⟩ := Except.ok_of_map hc
    rfl
  | pattern => exact leaf_collects patternCheck_makes
  | uniqueItems => exact leaf_collects uniqueCheck_makes
  | required => exact leaf_collects requiredCheck_makes
  | items => exact itemsCheck_collects hn
  | properties => exact propertiesCheck_collects hn
  | additionalProperties => exact additionalCheck_collects hn
  | allOf | anyOf | oneOf => exact (branches_collects hn).map fun rules => rfl
  | excluded => exact (hn.whole _).map fun rule => rfl
  | conditional => exact conditionalCheck_collects hn hs

theorem checkOf_collects (hn : nested.Collects)
    (hs : ∀ key, (s.sibling key).Collects Option.toList) (entry : Registry.Entry) :
    (checkOf s payload nested entry).Collects Check.rules := by
  cases entry with
  | builtIn k => exact builtInCheck_collects hn hs k
  | custom k => exact customCheck_collects hn k

end Compile

section

open Compiling

variable {registry : Registry}

theorem compileSibling_collects (entries : List (String × Value)) (location key : String) :
    (compileSibling registry entries location key).Collects Option.toList := by
  induction entries with
  | nil =>
    rw [compileSibling]
    exact .pure rfl
  | cons f rest ih =>
    rw [compileSibling]
    split
    · exact (Collects.nest _).map fun r => rfl
    · exact ih

theorem compileList_collects (schemas : List Value) (location : String) (i : Nat) :
    (compileList registry schemas location i).Collects id := by
  induction schemas generalizing i with
  | nil =>
    rw [compileList]
    exact .pure rfl
  | cons v schemas ih =>
    rw [compileList]
    exact (Collects.nest _).both (ih _) fun r rules => rfl

theorem compileEntries_collects (entries : List (String × Value)) (location : String) :
    (compileEntries registry entries location).Collects (List.map Prod.snd) := by
  induction entries with
  | nil =>
    rw [compileEntries]
    exact .pure rfl
  | cons f entries ih =>
    rw [compileEntries]
    exact (Collects.nest _).both ih fun r rules => rfl

theorem Nested.collects (payload : Value) : Nested.Collects
    ⟨fun location => .nest (compileAt registry payload location), compileItems registry payload,
      compileFields registry payload, compileField registry payload⟩ where
  whole location := .nest _
  items location := by
    cases payload with
    | array schemas => exact compileList_collects schemas location 0
    | _ => exact .pure rfl
  fields location := by
    cases payload with
    | object entries => exact compileEntries_collects entries location
    | _ => exact .pure rfl
  field name location := by
    cases payload with
    | object entries =>
      refine ⟨fun h => ?_⟩
      obtain ⟨rule?, _, hs, h⟩ := run_of_bind h
      have hraised := (compileSibling_collects entries location name).raised hs
      cases rule? with
      | none => exact nomatch h
      | some r =>
        cases h
        exact hraised
    | _ => exact .throw _

theorem compileChecks_collects {node : Dict Value} {location : String}
    {sibling : String → Compiling (Option Rule)} {reserved : List String}
    (hs : ∀ key, (sibling key).Collects Option.toList) (entries : List (String × Value)) :
    (compileChecks registry node location sibling reserved entries).Collects
      (List.flatMap Check.rules) := by
  induction entries with
  | nil =>
    rw [compileChecks]
    exact .pure rfl
  | cons f rest ih =>
    obtain ⟨key, payload⟩ := f
    rw [compileChecks]
    split
    · exact ih
    · split
      · exact .throw _
      · exact (Compile.checkOf_collects (Nested.collects payload) hs _).both ih
          fun c checks => List.flatMap_cons

/-- **Flags are collected from below.** The flag that a node is left with when its keywords have
been compiled is the one that its rules raise. -/
theorem compileAt_flagged {v : Value} {location : String} {r : Rule}
    (h : compileAt registry v location = .ok r) : r.Flagged := by
  obtain ⟨-, rfl⟩ | ⟨fields, a, checks, raised, -, -, hc, rfl⟩ := compileAt_eq_ok h
  · rfl
  · have hraised := (compileChecks_collects
      (fun key => compileSibling_collects fields location key) fields).raised hc
    rw [Bool.false_or] at hraised
    rw [hraised]
    rfl

/-- All flags in what a schema compiles to are raised like that. -/
theorem Registry.Compiles.collects {r : Rule} {v : Value} (h : registry.Compiles v r) :
    r.Collects := by
  induction r using Rule.rules_induction generalizing v with
  | step r ih =>
    have flagged : r.Flagged := by
      obtain ⟨location, hr⟩ := h
      exact compileAt_flagged hr
    refine .node flagged fun x hx => ?_
    obtain ⟨-, w, -, compiled⟩ := h.exists_schema hx
    exact ih x hx compiled

end

end Conform
