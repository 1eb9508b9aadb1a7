import Conform.Proofs.Leaves
import Conform.Proofs.Safe
import Conform.Proofs.SchemaReading

/-!
# Evaluation as reading

A schema is compiled to a rule, and evaluation serves the walk of that from a tree, tries branches
on copies and folds outcomes on every level. Main statement: where the schema has no default, no
filter and no `required: true`, and nothing is coerced or removed, it comes to an outcome with the
verdict that is read off the schema, and leaves the value as it is.
-/

namespace Conform

theorem Dict.insert_self {β : Type} {k : String} {v : β} {d : Dict β} (h : d.get? k = some v) :
    d.insert k v = d := by
  induction d with
  | nil => cases h
  | cons p d ih =>
    rw [Dict.get?] at h
    rw [Dict.insert]
    split at h
    · next hk =>
      cases h
      rw [if_pos hk, ← hk]
    · next hk => rw [if_neg hk, ih h]

namespace Tree

/-- A place that holds something below is not null. -/
theorem openedFor_of_child {v w : Value} {s : Segment} {r : Route}
    (h : valueAt? v (s :: r) = some w) : openedFor s v = v := by
  cases v with
  | null => cases s <;> cases h
  | _ => rfl

theorem changeChild_self {path above : Route} {holder w : Value} {s : Segment}
    {change : Option Value → Written (Option Value)} (h : childOf? holder s = some w)
    (hc : change (some w) = ⟨some w, none⟩) :
    changeChild path above holder s change = ⟨holder, none⟩ := by
  cases holder with
  | object d =>
    have h : Dict.get? s.text d = some w := by cases s <;> exact h
    simp only [changeChild, h, hc, Dict.insert_self h]
  | array items =>
    cases s with
    | key k => cases h
    | index i =>
      obtain ⟨hi, rfl⟩ := List.getElem?_eq_some_iff.1 h
      simp only [changeChild, dif_pos hi, hc, Option.getD_some, List.set_getElem_self]
  | _ => cases s <;> cases h

theorem setBelow_self {path above r : Route} {holder v : Value}
    (h : valueAt? holder r = some v) : setBelow path (some v) above holder r = ⟨holder, none⟩ := by
  induction r generalizing above holder with
  | nil =>
    cases h
    rfl
  | cons s r ih =>
    rw [valueAt?_cons, Option.bind_eq_some_iff] at h
    obtain ⟨w, hw, h⟩ := h
    cases r with
    | nil =>
      cases h
      exact changeChild_self hw rfl
    | cons s' r =>
      refine changeChild_self hw ?_
      simp only [Option.getD_some, openedFor_of_child h, ih h]

/-- To write what is there is to write nothing. -/
theorem set_get?_self {t : Tree} {r : Route} {v : Value} (h : t.get? r = some v) :
    set t r (some v) = ⟨t, none⟩ := by
  cases t with
  | none => cases h
  | some w =>
    cases r with
    | nil =>
      cases h
      rfl
    | cons s r =>
      have h : valueAt? w (s :: r) = some v := h
      rw [set_cons _ s r (some v) fun hv => by cases hv]
      simp only [Option.getD_some, openedFor_of_child h, setBelow_self h]

end Tree

namespace Walk

/-- The walk leaves the tree as it is and comes to an outcome of this verdict. -/
def Gives (w : Walk) (isOpen : String → Bool) (t : Tree) (b : Option Bool) : Prop :=
  ∃ o, w.detached isOpen t = .finished o t ∧ o.valid = b

variable {isOpen : String → Bool} {t : Tree} {r : Route} {b c : Option Bool} {w : Walk}

theorem detached_andThen {t' : Tree} {o : Outcome} {k : Outcome → Walk}
    (h : w.detached isOpen t = .finished o t') :
    (w.andThen k).detached isOpen t = (k o).detached isOpen t' := by
  induction w generalizing t with
  | done o =>
    cases h
    rfl
  | fail e => cases h
  | read r next ih => exact ih _ h
  | write r v next ih =>
    simp only [andThen, detached] at h ⊢
    split at h
    · cases h
    · exact ih h
  | await g next ih =>
    simp only [andThen, detached] at h ⊢
    split at h
    · next ho =>
      rw [if_pos ho]
      exact ih h
    · cases h
  | visit r d hint body next _ ih =>
    simp only [andThen, detached] at h ⊢
    split at h
    · exact ih _ h
    · cases h
    · cases h

/-- A walk that goes on after another one comes to its outcome through one of that. -/
theorem detached_of_andThen {t' : Tree} {o : Outcome} {k : Outcome → Walk}
    (h : (w.andThen k).detached isOpen t = .finished o t') :
    ∃ said between, w.detached isOpen t = .finished said between ∧
      (k said).detached isOpen between = .finished o t' := by
  induction w generalizing t with
  | done said => exact ⟨said, t, rfl, h⟩
  | fail e => cases h
  | read r next ih => exact ih _ h
  | write r v next ih =>
    simp only [andThen, detached] at h ⊢
    split at h
    · cases h
    · exact ih h
  | await g next ih =>
    simp only [andThen, detached] at h ⊢
    split at h
    · next ho =>
      rw [if_pos ho]
      exact ih h
    · cases h
  | visit r d hint body next _ ih =>
    simp only [andThen, detached] at h ⊢
    split at h
    · exact ih _ h
    · cases h
    · cases h

theorem Gives.done {o : Outcome} (h : o.valid = b) : (done o).Gives isOpen t b := ⟨o, rfl, h⟩

theorem Gives.read {next : Option Value → Walk} (h : (next (t.get? r)).Gives isOpen t b) :
    (read r next).Gives isOpen t b := h

theorem Gives.rewrite {v : Value} (hv : t.get? r = some v) (h : w.Gives isOpen t b) :
    (write r (some v) w).Gives isOpen t b := by
  obtain ⟨o, ho, hb⟩ := h
  refine ⟨o, ?_, hb⟩
  simp only [detached, Tree.set_get?_self hv]
  exact ho

theorem Gives.andThen {k : Outcome → Walk} (h : w.Gives isOpen t b)
    (hk : ∀ o, o.valid = b → (k o).Gives isOpen t c) : (w.andThen k).Gives isOpen t c := by
  obtain ⟨o, ho, hb⟩ := h
  obtain ⟨o', ho', hc⟩ := hk o hb
  exact ⟨o', (detached_andThen ho).trans ho', hc⟩

theorem Gives.visit {d : Declaration} {hint : Outcome} {body : Mode → Walk}
    {next : Outcome → Walk} (silent : hint.valid = none) (h : (body .full).Gives isOpen t b)
    (hk : ∀ o, o.valid = b → (next o).Gives isOpen t c) :
    (visit r d hint body next).Gives isOpen t c := by
  obtain ⟨o, ho, hb⟩ := h
  have hb : (Outcome.merge [hint, o]).valid = b := (Outcome.merge_hint_valid silent o).trans hb
  obtain ⟨o', ho', hc⟩ := hk (Outcome.merge [hint, o]) hb
  refine ⟨o', ?_, hc⟩
  simp only [detached, ho]
  exact ho'

/-- A probe gives on the copy what the walk gives on the tree. -/
theorem Gives.probe {k : Outcome → Walk} (h : w.Gives isOpen t b)
    (confined : w.Confined r fun _ => True)
    (hk : ∀ o, o.valid = b → (k o).Gives isOpen t c) : (w.probe r k).Gives isOpen t c := by
  obtain ⟨o, ho, hb⟩ := h
  have hcopy : w.ComesTo r (t.get? r) (.passed o (t.get? r)) :=
    confined.comesTo_append rfl (confined.comesTo_of_detached ho)
  refine Gives.read ?_
  rw [hcopy]
  exact hk o hb

end Walk

/-- Leaves that change no value: no default, no filter, and no value that has to be there. -/
def Leaf.Still : Leaf → Prop
  | annotations default filters constant =>
    default = none ∧ filters = [] ∧ constant.valid = none
  | present needed => needed = false
  | _ => True

namespace Leaf

variable {options : EvalOptions} {isOpen : String → Bool} {t : Tree} {route : Route}

theorem judging_gives {judge : Value → Outcome} {said : Value → Option Bool}
    (h : ∀ v, (judge v).valid = said v) :
    (judging judge route).Gives isOpen t ((t.get? route).bind said) := by
  refine Walk.Gives.read ?_
  cases t.get? route with
  | none => exact .done rfl
  | some v => exact .done (h v)

theorem annotationsWalk_gives {constant : Outcome} (h : constant.valid = none) :
    (annotationsWalk none [] constant route).Gives isOpen t none := by
  have hprepared : prepared none [] (t.get? route) = t.get? route := by
    simp [prepared]
  refine Walk.Gives.read ?_
  simp only [hprepared]
  split
  · exact .done h
  · next hne =>
    cases hv : t.get? route with
    | none =>
      rw [hv] at hne
      exact absurd rfl hne
    | some v => exact .rewrite hv (.done h)

theorem typeWalk_gives (uncoerced : options.coerceTypes = false) (kinds : List Kind) :
    (typeWalk options kinds route).Gives isOpen t
      ((t.get? route).bind fun v => some (kinds.any (·.accepts v))) := by
  refine Walk.Gives.read ?_
  cases t.get? route with
  | none => exact .done rfl
  | some v =>
    simp only [uncoerced, Bool.false_eq_true, if_false]
    split
    · next h => exact .done (congrArg some h.symm)
    · next h => exact .done (congrArg some (Bool.not_eq_true _ ▸ h).symm)

theorem additionalKeysWalk_gives (kept : options.removeAdditional = false) (node : Dict Value) :
    (additionalKeysWalk options (Compile.propertyNames node) route).Gives isOpen t
      ((t.get? route).bind fun v => some (v.keys.all (Value.declares node))) := by
  refine Walk.Gives.read ?_
  cases t.get? route with
  | none => exact .done rfl
  | some v =>
    have hall : v.keys.all (Value.declares node) =
        (extraKeys (Compile.propertyNames node) v).isEmpty := by
      rw [extraKeys_eq, List.all_eq_not_any_not, Bool.eq_iff_iff]
      simp
    simp only [kept, Bool.false_eq_true, if_false, Option.bind_some, hall]
    split
    · next h => exact .done (by rw [h]; rfl)
    · next h => exact .done (by rw [h]; rfl)

/-- The first name that is missing decides. -/
theorem judgeNames_valid (names : List String) (fields : Dict Value) :
    (judgeNames names (.object fields)).valid =
      some (names.all fun name => Dict.contains name fields) := by
  rw [judgeNames]
  split
  · next name hname =>
    have hmissing : names.all (fun name => Dict.contains name fields) = false :=
      List.all_eq_false.2 ⟨name, List.mem_of_find?_eq_some hname, by
        simpa using List.find?_some hname⟩
    rw [hmissing]
    rfl
  · next hnone =>
    have hthere : names.all (fun name => Dict.contains name fields) = true :=
      List.all_eq_true.2 fun name hname => by
        simpa using List.find?_eq_none.1 hnone name hname
    rw [hthere]
    rfl

/-- The leaf of a keyword that changes no value gives what the keyword says. -/
theorem walk_gives (uncoerced : options.coerceTypes = false)
    (kept : options.removeAdditional = false) {node : Dict Value} {k : BuiltIn} {payload : Value}
    {l : Leaf} (made : k.MakesLeaf node payload l) (still : l.Still) :
    (l.walk options route).Gives isOpen t
      ((t.get? route).bind fun v => k.judges node payload v) := by
  cases made with
  | type written named =>
    simp only [BuiltIn.judges, ← Kind.any_accepts written named]
    exact typeWalk_gives uncoerced _
  | enum allowed => exact judging_gives fun v => Outcome.check_valid _ _
  | const => exact judging_gives fun v => Outcome.check_valid _ _
  | bound =>
    refine judging_gives fun v => ?_
    cases v with
    | number n => exact (Outcome.check_valid _ _).trans (congrArg some boundHolds_eq)
    | _ => rfl
  | length side count =>
    refine judging_gives fun v => ?_
    cases v with
    | string s =>
      refine (Outcome.check_valid _ _).trans ?_
      cases side <;> simp only [BuiltIn.judges, count, Option.map_some, Side.holds]
    | _ => cases side <;> rfl
  | pattern parsed =>
    refine judging_gives fun v => ?_
    cases v with
    | string s =>
      refine (Outcome.check_valid _ _).trans ?_
      simp only [BuiltIn.judges, parsed, Option.map_some]
    | _ => rfl
  | itemCount side count =>
    refine judging_gives fun v => ?_
    cases v with
    | array vs =>
      refine (Outcome.check_valid _ _).trans ?_
      cases side <;> simp only [BuiltIn.judges, count, Option.map_some, Side.holds]
    | _ => cases side <;> rfl
  | uniqueItems enabled =>
    refine judging_gives fun v => ?_
    cases enabled with
    | false => cases v <;> rfl
    | true =>
      cases v with
      | array vs => exact (Outcome.check_valid _ _).trans (congrArg some (hasDuplicate_eq vs))
      | _ => rfl
  | present needed =>
    obtain rfl : needed = false := still
    exact .done (by cases t.get? route <;> rfl)
  | requiredNames written =>
    obtain rfl := Value.strings?_eq_some.1 written
    refine judging_gives fun v => ?_
    cases v with
    | object fields =>
      change _ = some ((Value.strings _).texts.all _)
      rw [Value.texts_strings]
      exact judgeNames_valid _ fields
    | _ => rfl
  | additionalKeys allowed =>
    cases allowed with
    | true => exact .done (by cases t.get? route <;> rfl)
    | false => exact additionalKeysWalk_gives kept node

end Leaf

theorem forall₂_replicate {α β : Type} {R : α → β → Prop} {a : α} {b : β} (n : Nat) (h : R a b) :
    List.Forall₂ R (List.replicate n a) (List.replicate n b) := by
  induction n with
  | zero => exact .nil
  | succ n ih => exact .cons h ih

theorem zipWith_replicate {α β γ : Type} (f : α → β → γ) (a : α) (bs : List β) :
    (List.replicate bs.length a).zipWith f bs = bs.map (f a) := by
  rw [← List.map_const', List.zipWith_map_left, List.zipWith_self]

theorem zipWith_take {α β γ : Type} (f : α → β → γ) (as : List α) (bs : List β) :
    (as.take bs.length).zipWith f bs = as.zipWith f bs := by
  have hlength : (as.zipWith f bs).length ≤ bs.length := by
    rw [List.length_zipWith]
    exact Nat.min_le_right _ _
  calc
    (as.take bs.length).zipWith f bs
      = (as.take bs.length).zipWith f (bs.take bs.length) := by rw [List.take_length]
    _ = (as.zipWith f bs).take bs.length := List.take_zipWith.symm
    _ = as.zipWith f bs := List.take_of_length_le hlength

/-- The rule keeps to its place, and anywhere it gives what is read of the value there. -/
structure Rule.Reads (options : EvalOptions) (r : Rule) (read : Reading) : Prop where
  confined : (r.walker options).Confined
  gives : ∀ isOpen t route, (r.walk options .full route).Gives isOpen t (read (t.get? route))

namespace Check

open Verdict Walk
open List (Forall₂)

variable {options : EvalOptions} {isOpen : String → Bool} {t : Tree} {route : Route}

/-- What a visit gives, joined with what the parent has to say about the place. -/
def Visit.Gives (isOpen : String → Bool) (t : Tree) (v : Visit) (b : Option Bool) : Prop :=
  v.hint.valid = none ∧ (v.walker.walk .full v.route).Gives isOpen t b

theorem visitAll_gives (message : String) (ok : Bool) {vs : List Visit} {bs : List (Option Bool)}
    (h : Forall₂ (Visit.Gives isOpen t) vs bs) :
    (visitAll message ok vs).Gives isOpen t (some (ok && decide (some false ∉ bs))) := by
  induction h generalizing ok with
  | nil => exact .done (by simp [Outcome.check_valid])
  | @cons v b vs bs h _ ih =>
    refine Gives.visit h.1 h.2 fun o ho => ?_
    have hfold : (ok && o.passes && decide (some false ∉ bs)) =
        (ok && decide (some false ∉ b :: bs)) := by
      rw [Bool.and_assoc, Outcome.passes, Outcome.isInvalid, ho]
      simp [List.mem_cons, eq_comm]
    rw [← hfold]
    exact ih (ok && o.passes)

/-- The visits of all places below give the verdict on them together. -/
theorem visitAll_gives_below (message : String) {vs : List Visit} {bs : List (Option Bool)}
    (h : Forall₂ (Visit.Gives isOpen t) vs bs) :
    (visitAll message true vs).Gives isOpen t (below bs) := by
  simpa [below] using visitAll_gives message true h

theorem propertiesWalk_gives {fields : List (String × Reading)} {children : List Property}
    (h : Forall₂ (fun f p => p.rule.Reads options f.2 ∧ ∃ required, p = .mk f.1 required p.rule)
      fields children) :
    (propertiesWalk (children.map (Property.visit options route)) route).Gives isOpen t
      (match t.get? route with
        | none | some (.object _) =>
          below (fields.map fun f => f.2 ((t.get? route).bind (Value.field? f.1)))
        | some _ => none) := by
  have hvisits : (∀ key, t.get? (route.childNamed key) =
      (t.get? route).bind (Value.field? key)) →
      (visitAll invalidProperties true (children.map (Property.visit options route))).Gives
        isOpen t (below (fields.map fun f => f.2 ((t.get? route).bind (Value.field? f.1)))) := by
    intro hfield
    refine visitAll_gives_below _ ?_
    rw [List.forall₂_map_left_iff, List.forall₂_map_right_iff]
    refine h.flip.imp fun p f hp => ?_
    obtain ⟨hreads, required, he⟩ := hp
    rw [he, ← hfield]
    exact ⟨rfl, hreads.gives isOpen t _⟩
  refine Gives.read ?_
  cases hv : t.get? route with
  | none =>
    rw [hv] at hvisits
    refine hvisits fun key => ?_
    rw [Route.childNamed, Route.child, Tree.get?_append, hv]
    rfl
  | some v =>
    cases v with
    | object d =>
      rw [hv] at hvisits
      exact hvisits fun key => Tree.get?_childNamed key hv
    | _ => exact .done rfl

theorem additionalWalk_gives (isOpen : String → Bool) (t : Tree) (route : Route)
    (known : List String) {rule : Rule} {read : Reading} (h : rule.Reads options read) :
    (additionalWalk known (rule.walker options) route).Gives isOpen t
      ((t.get? route).bind fun v =>
        below ((Leaf.extraKeys known v).map fun key => read (v.field? key))) := by
  refine Gives.read ?_
  cases hv : t.get? route with
  | none => exact .done rfl
  | some v =>
    refine visitAll_gives_below _ ?_
    rw [List.forall₂_map_left_iff, List.forall₂_map_right_iff, List.forall₂_same]
    intro key hkey
    refine ⟨rfl, ?_⟩
    cases v with
    | object d =>
      have hgives := h.gives isOpen t (route.childNamed key)
      rwa [Tree.get?_childNamed key hv] at hgives
    | _ => cases hkey

theorem itemsWalk_gives (isOpen : String → Bool) (t : Tree) (route : Route)
    {rules : Nat → List Rule} {reads : Nat → List Reading} (few : ∀ n, (rules n).length ≤ n)
    (h : ∀ n, Forall₂ (Rule.Reads options) (rules n) (reads n)) :
    (itemsWalk (fun n => (rules n).map (Rule.walker options)) route).Gives isOpen t
      (match t.get? route with
        | some (.array vs) => below ((reads vs.length).zipWith (fun read v => read (some v)) vs)
        | _ => none) := by
  refine Gives.read ?_
  cases hv : t.get? route with
  | none => exact .done rfl
  | some v =>
    cases v with
    | array vs =>
      refine visitAll_gives_below _ ?_
      obtain ⟨hsame, hreads⟩ := List.forall₂_iff_get.1 (h vs.length)
      have hlength := few vs.length
      rw [List.forall₂_iff_get]
      refine ⟨by simp [itemVisits, hlength, ← hsame], fun i hi hi' => ?_⟩
      have hi : i < (rules vs.length).length := by simpa [itemVisits] using hi
      have hlt : i < vs.length := Nat.lt_of_lt_of_le hi hlength
      have hgives := (hreads i hi (hsame ▸ hi)).gives isOpen t (route.child (.index i))
      have hitem : t.get? (route.child (.index i)) = some vs[i] := by
        rw [Route.child, Tree.get?_append, hv, Tree.get?_singleton]
        exact List.getElem?_eq_getElem _
      rw [hitem] at hgives
      simpa [itemVisits, Visit.Gives] using ⟨rfl, hgives⟩
    | _ => exact .done rfl

theorem allOfWalk_gives {branches : List Rule} {reads : List Reading}
    (h : Forall₂ (Rule.Reads options) branches reads) (os : List Outcome) :
    (allOfWalk .full route os (branches.map (Rule.walker options))).Gives isOpen t
      (conjunction (os.map (·.valid) ++ reads.map (· (t.get? route)))) := by
  induction h generalizing os with
  | nil => exact .done (by simp [Outcome.merge_valid])
  | cons hr _ ih =>
    refine Gives.andThen (hr.gives isOpen t route) fun o ho => ?_
    have hih := ih (os ++ [o])
    rwa [List.map_append, List.map_singleton, ho, List.append_assoc, List.singleton_append] at hih

theorem anyOfWalk_gives {branches : List Rule} {reads : List Reading}
    (h : Forall₂ (Rule.Reads options) branches reads) :
    (anyOfWalk .full route (branches.map (Rule.walker options))).Gives isOpen t
      (first (reads.map (· (t.get? route)))) := by
  induction h with
  | nil => exact .done rfl
  | cons hr _ ih =>
    refine Gives.probe (hr.gives isOpen t route) (hr.confined .full route) fun o ho => ?_
    split
    · next hp =>
      rw [Outcome.passes_iff, ho] at hp
      rw [List.map_cons, first, List.find?_cons_of_pos (by simpa using hp)]
      exact hr.gives isOpen t route
    · next hp =>
      rw [Outcome.passes_iff, ho] at hp
      rw [List.map_cons, first, List.find?_cons_of_neg (by simpa using hp)]
      exact ih

theorem oneOfWalk_gives {matched branches : List Rule} {held reads : List Reading}
    (hm : Forall₂ (Rule.Reads options) matched held)
    (h : Forall₂ (Rule.Reads options) branches reads)
    (passed : ∀ read ∈ held, read (t.get? route) ≠ some false) :
    (oneOfWalk .full route (matched.map (Rule.walker options))
      (branches.map (Rule.walker options))).Gives isOpen t
      (only ((held ++ reads).map (· (t.get? route)))) := by
  induction h generalizing matched held with
  | nil =>
    have hall : (held.map (· (t.get? route))).filter (· ≠ some false) =
        held.map (· (t.get? route)) :=
      List.filter_eq_self.2 (List.forall_mem_map.2 fun read hread => by
        simpa using passed read hread)
    rw [List.append_nil, only, hall]
    cases hm with
    | nil => exact .done rfl
    | cons hr rest =>
      cases rest with
      | nil => exact hr.gives isOpen t route
      | cons _ _ => exact .done rfl
  | @cons r read rs reads hr _ ih =>
    rw [List.map_cons, oneOfWalk]
    refine Gives.probe (hr.gives isOpen t route) (hr.confined .full route) fun o ho => ?_
    split
    · next hp =>
      rw [Outcome.passes_iff, ho] at hp
      have hih := ih (List.rel_append hm (.cons hr .nil))
        (List.forall_mem_append.2 ⟨passed, List.forall_mem_singleton.2 hp⟩)
      rwa [List.append_assoc, List.singleton_append, List.map_append, List.map_singleton] at hih
    · next hp =>
      rw [Outcome.passes_iff, ho, not_not] at hp
      have honly : only ((held ++ read :: reads).map (· (t.get? route))) =
          only ((held ++ reads).map (· (t.get? route))) := by
        simp [only, hp]
      rw [honly]
      exact ih hm passed

theorem excludedWalk_gives {rule : Rule} {read : Reading} (h : rule.Reads options read) :
    (excludedWalk (rule.walker options) route).Gives isOpen t
      (some (decide (read (t.get? route) = some false))) := by
  refine Gives.probe (h.gives isOpen t route) (h.confined .full route) fun o ho => .done ?_
  rw [Outcome.check_valid, Outcome.passes, Outcome.isInvalid, ho]
  simp

/-- A branch that is not there says nothing. -/
theorem branch_gives {node : Dict Value} {key : String} {branch : Option Rule}
    (h : Option.Rel (fun w x => x.Reads options w.reading) (Dict.get? key node) branch) :
    (match branch.map (Rule.walker options) with
      | some w => w.walk .full route
      | none => .done Outcome.silent).Gives isOpen t (readBeside node key (t.get? route)) := by
  rw [readBeside_eq]
  generalize Dict.get? key node = schema at h ⊢
  cases h with
  | none => exact .done rfl
  | some hr => exact hr.gives isOpen t route

theorem conditionalWalk_gives {node : Dict Value} {condition : Rule} {met unmet : Option Rule}
    {read : Reading} (hc : condition.Reads options read)
    (hm : Option.Rel (fun w x => x.Reads options w.reading) (Dict.get? "then" node) met)
    (hu : Option.Rel (fun w x => x.Reads options w.reading) (Dict.get? "else" node) unmet) :
    (conditionalWalk .full route (condition.walker options) (met.map (Rule.walker options))
      (unmet.map (Rule.walker options))).Gives isOpen t
      (if read (t.get? route) = some false then readBeside node "else" (t.get? route)
        else readBeside node "then" (t.get? route)) := by
  refine Gives.probe (hc.gives isOpen t route) (hc.confined .full route) fun o ho => ?_
  rw [← ho]
  by_cases hp : o.passes = true
  · rw [if_pos hp, if_neg (Outcome.passes_iff.1 hp)]
    exact branch_gives hm
  · rw [if_neg hp, if_pos (not_not.1 fun h => hp (Outcome.passes_iff.2 h))]
    exact branch_gives hu

/-- The checks of a node give what they say together, whatever texts the node puts in. -/
theorem runAll_gives (node : NodeMessages) {checks : List Check} {bs : List (Option Bool)}
    (h : Forall₂ (fun c b => (c.walk options .full route).Gives isOpen t b) checks bs)
    (os : List Outcome) :
    (runAll .full route (fun os => done (node.resolve options.messages (Outcome.merge os))) os
      (readyChecks options checks)).Gives isOpen t (conjunction (os.map (·.valid) ++ bs)) := by
  rw [readyChecks_eq_map]
  induction h generalizing os with
  | nil =>
    refine .done ?_
    rw [List.append_nil]
    exact Outcome.merge_valid os
  | @cons c b cs bs hc _ ih =>
    refine Gives.andThen hc fun o ho => ?_
    have hih := ih (os ++ [o.attributed c.keyword])
    rw [List.map_append, List.map_singleton, List.append_assoc, List.singleton_append] at hih
    rw [← ho]
    exact hih

end Check

/-- A keyword with no schemas in its payload says what it judges. -/
theorem BuiltIn.MakesLeaf.reading {node : Dict Value} {k : BuiltIn} {payload : Value} {l : Leaf}
    (h : k.MakesLeaf node payload l) (whole : Reading) (items : List Reading)
    (fields : List (String × Reading)) (beside : String → Reading) (v : Option Value) :
    k.reading node payload whole items fields beside v =
      v.bind fun v => k.judges node payload v := by
  cases h <;> rfl

variable {options : EvalOptions}

/-- The check of a keyword gives what the keyword says. -/
theorem BuiltIn.Makes.gives (uncoerced : options.coerceTypes = false)
    (kept : options.removeAdditional = false) {node : Dict Value} {k : BuiltIn} {payload : Value}
    {c : Check} (h : k.Makes (fun w x => x.Reads options w.reading) node payload c)
    (still : ∀ l, c = .leaf l → l.Still) (isOpen : String → Bool) (t : Tree) (route : Route) :
    (c.walk options .full route).Gives isOpen t
      (k.reading node payload payload.reading (readItems payload) (readFields payload)
        (readBeside node) (t.get? route)) := by
  have hreads : ∀ {schemas rules},
      List.Forall₂ (fun w x => x.Reads options w.reading) schemas rules →
      List.Forall₂ (Rule.Reads options) rules (schemas.map Value.reading) :=
    fun compiled => List.forall₂_map_right_iff.2 compiled.flip
  cases h with
  | leaf made =>
    rw [Check.walk, made.reading]
    exact Leaf.walk_gives uncoerced kept made (still _ rfl)
  | properties compiled =>
    rw [Check.walk, propertyVisits_eq_map, readFields_object]
    refine Check.propertiesWalk_gives (List.forall₂_map_left_iff.2 ?_)
    exact compiled.imp fun e p hp => ⟨hp.1, _, hp.2⟩
  | additional compiled =>
    have hgives := Check.additionalWalk_gives isOpen t route (Compile.propertyNames node)
      compiled
    simp only [Leaf.extraKeys_eq] at hgives
    rw [Check.walk]
    cases hv : t.get? route with
    | none =>
      rw [hv] at hgives
      exact hgives
    | some v =>
      rw [hv] at hgives
      exact hgives
  | @items _ rule single compiled =>
    have hgives := Check.itemsWalk_gives isOpen t route
      (fun n => List.length_replicate.le) fun n => forall₂_replicate n compiled
    simp only [List.map_replicate, zipWith_replicate] at hgives
    rw [Check.walk]
    cases payload with
    | array schemas => exact absurd rfl (single schemas)
    | _ => exact hgives
  | @tuple schemas rules compiled =>
    have hgives := Check.itemsWalk_gives isOpen t route
      (fun n => List.length_take_le n rules) fun n => List.forall₂_take n (hreads compiled)
    simp only [List.map_take, zipWith_take] at hgives
    rw [Check.walk, walkersOf_eq_map, readItems_array]
    exact hgives
  | allOf compiled =>
    rw [Check.walk, walkersOf_eq_map, readItems_array]
    exact Check.allOfWalk_gives (hreads compiled) []
  | anyOf compiled =>
    rw [Check.walk, walkersOf_eq_map, readItems_array]
    exact Check.anyOfWalk_gives (hreads compiled)
  | oneOf compiled =>
    rw [Check.walk, walkersOf_eq_map, readItems_array]
    exact Check.oneOfWalk_gives .nil (hreads compiled) (List.forall_mem_nil _)
  | excluded compiled =>
    rw [Check.walk]
    exact Check.excludedWalk_gives compiled
  | conditional compiled whenMet whenUnmet =>
    rw [Check.walk, walkerOf?_eq_map, walkerOf?_eq_map]
    exact Check.conditionalWalk_gives compiled whenMet whenUnmet

/-- A schema that changes no value: neither it nor a schema in it has a default, a filter or
`required: true`. -/
inductive Value.Still : Value → Prop where
  | bool (b : Bool) : Value.Still (.bool b)
  | object {fields : List (String × Value)}
      (unset : ∀ f ∈ fields, f.1 ≠ "default" ∧ f.1 ≠ "filter" ∧ f ≠ ("required", .bool true))
      (nested : ∀ f ∈ fields, ∀ k : BuiltIn, k.name = f.1 → ∀ v ∈ k.schemas f.2, Value.Still v)
      (branches : "if" ∈ Dict.keys fields → ∀ key ∈ ["then", "else"], ∀ v,
        Dict.get? key fields = some v → Value.Still v) :
      Value.Still (.object fields)

theorem Dict.get?_eq_none {β : Type} {k : String} {d : Dict β} (h : ∀ p ∈ d, p.1 ≠ k) :
    d.get? k = none := by
  cases hv : d.get? k with
  | none => rfl
  | some v => exact absurd rfl (h _ (mem_of_get? hv))

theorem Annotations.parse_still {fields : Dict Value} {location : String} {a : Annotations}
    (default : fields.get? "default" = none) (filter : fields.get? "filter" = none)
    (h : parse .standard fields location = .ok a) :
    Leaf.Still (.annotations a.default a.filters a.constant) := by
  obtain ⟨hdefault, hsilent, -, names, hnames, hfilters⟩ := parse_eq_ok h
  rw [(strings_eq_ok location hnames).2 filter] at hfilters
  exact ⟨hdefault.trans default, (Except.ok.inj hfilters).symm, hsilent⟩

theorem BuiltIn.MakesLeaf.still {node : Dict Value} {k : BuiltIn} {payload : Value} {l : Leaf}
    (h : k.MakesLeaf node payload l) (unset : (k.name, payload) ≠ ("required", .bool true)) :
    l.Still := by
  cases h with
  | present needed =>
    cases needed with
    | false => rfl
    | true => exact absurd rfl unset
  | _ => trivial

theorem Value.spread_still : Spread Still (fun _ => True) Leaf.Still where
  never := trivial
  annotations hfields h := by
    rcases hfields with rfl | hfields
    · exact Annotations.parse_still rfl rfl h
    · cases hfields with
      | object unset =>
        exact Annotations.parse_still (Dict.get?_eq_none fun f hf => (unset f hf).1)
          (Dict.get?_eq_none fun f hf => (unset f hf).2.1) h
  keyword hfields hmem hl := by
    cases hfields with
    | object unset => exact hl.still (unset _ hmem).2.2
  names _ _ _ _ := trivial
  nested hfields hmem := by
    cases hfields with
    | object _ nested => exact nested _ hmem _ rfl
  branches hfields hif hkey hv := by
    cases hfields with
    | object _ _ branches => exact branches hif _ hkey _ hv

/-- An entry that is no keyword says nothing. -/
theorem Value.entryReading_of_reserved {node : Dict Value} {e : String × Value}
    (reserved : e.1 ∈ Compile.reservedKeys .standard node) (v : Option Value) :
    entryReading node e v = none := by
  rw [entryReading, BuiltIn.named?_of_reserved reserved]

/-- The payloads in a node say what the node says. -/
theorem Value.reading_payloads (node : Dict Value) (v : Option Value) :
    Verdict.conjunction ((Registry.standard.payloads node).map fun e => entryReading node e v) =
      (object node).reading v := by
  rw [reading_object]
  refine Verdict.conjunction_congr fun b => ?_
  simp only [Registry.payloads, List.mem_map, List.mem_filter]
  constructor
  · rintro ⟨e, ⟨he, -⟩, hb⟩
    exact ⟨e, he, hb⟩
  · rintro ⟨e, he, hb⟩
    refine ⟨e, ⟨he, ?_⟩, hb⟩
    by_contra hreserved
    rw [Bool.not_eq_true, Bool.not_eq_false', List.contains_iff_mem] at hreserved
    rw [entryReading_of_reserved hreserved] at hb
    cases hb

section

variable (uncoerced : options.coerceTypes = false) (kept : options.removeAdditional = false)
include uncoerced kept

/-- The check that is made of an entry of a node gives what the entry says. -/
theorem Registry.Makes.gives {node : Dict Value} (still : (Value.object node).Still)
    {key : String} {payload : Value} {c : Check} (mem : (key, payload) ∈ node)
    (h : standard.Makes standard.Compiles node (key, payload) c)
    (nested : ∀ x ∈ c.rules, ∀ w, standard.Compiles w x → w.Still → x.Reads options w.reading)
    (isOpen : String → Bool) (t : Tree) (route : Route) :
    (c.walk options .full route).Gives isOpen t
      (Value.entryReading node (key, payload) (t.get? route)) := by
  obtain ⟨k, rfl, made⟩ := h.exists_builtIn
  rw [Value.entryReading, BuiltIn.named?_name]
  have reads : k.Makes (fun w x => x.Reads options w.reading) node payload c :=
    made.imp fun w hw x hx compiled =>
      nested x hx w compiled (Value.spread_still.of_keyword still mem hw)
  refine reads.gives uncoerced kept (fun l hl => ?_) isOpen t route
  subst hl
  cases made with
  | leaf made => exact Value.spread_still.keyword still mem made

/-- What a schema that changes no value compiles to gives what the schema says. -/
theorem Registry.Compiles.reads {r : Rule} {v : Value} (h : standard.Compiles v r)
    (still : v.Still) : r.Reads options v.reading := by
  induction r using Rule.rules_induction generalizing v with
  | step r ih =>
    have builtIn := (h.made Value.spread_still still).isBuiltIn
    refine ⟨fun mode route => Rule.walk_confined options builtIn mode route,
      fun isOpen t route => ?_⟩
    obtain ⟨location, h⟩ := h
    obtain ⟨rfl, rfl⟩ | ⟨fields, a, checks, raised, hv, ha, made, rfl⟩ := eq_node_of_compileAt h
    · have hnever : ((Check.leaf .never).walk options .full route).Gives isOpen t (some false) :=
        .done rfl
      rw [Value.reading]
      exact Check.runAll_gives {} (.cons hnever .nil) []
    · have hstill := of_eq_object hv still
      have hread : v.reading = (Value.object fields).reading := by
        rcases hv with rfl | ⟨rfl, rfl⟩
        · rfl
        · funext value
          rw [Value.reading_object, Value.reading]
          rfl
      obtain ⟨hdefault, hfilters, hconstant⟩ := Value.spread_still.annotations hstill ha
      have hannotations : (a.check.walk options .full route).Gives isOpen t none := by
        rw [Annotations.check, Check.walk, hdefault, hfilters]
        exact Leaf.annotationsWalk_gives hconstant
      have hchecks : List.Forall₂ (fun c b => (c.walk options .full route).Gives isOpen t b) checks
          ((standard.payloads fields).map fun e =>
            Value.entryReading fields e (t.get? route)) := by
        rw [List.forall₂_map_right_iff]
        refine forall₂_of_mem made.flip fun c hc e he hmade => ?_
        have mem := List.mem_of_mem_filter he
        refine Registry.Makes.gives uncoerced kept (hstill.resolve_left (List.ne_nil_of_mem mem))
          mem hmade (fun x hx w => ih x ?_) isOpen t route
        exact List.mem_flatMap.2 ⟨c, List.mem_cons_of_mem _ hc, hx⟩
      have hgives := Check.runAll_gives a.messages (.cons hannotations hchecks) []
      rw [List.map_nil, List.nil_append, Verdict.conjunction_none_cons, Value.reading_payloads,
        ← hread] at hgives
      exact hgives

end

/-- **Evaluation is the reading.** Let no schema in the schema have a default, a filter or
`required: true`, and let nothing be coerced or removed. Then evaluation comes to an outcome for
every value, and for an undefined one; it leaves the value as it is, and whether the outcome is
valid, invalid or neither is what is read off the schema. -/
theorem evaluation_is_reading {schema : Value} {rule : Rule}
    (compiled : compile .standard schema = .ok rule) (still : schema.Still) {options : EvalOptions}
    (uncoerced : options.coerceTypes = false) (kept : options.removeAdditional = false)
    (isOpen : String → Bool) (v : Option Value) :
    ∃ o, rule.evaluateDetached options isOpen v = .finished o v ∧ o.valid = schema.reading v := by
  have hgives := (Registry.Compiles.reads uncoerced kept ⟨_, compiled⟩ still).gives isOpen v []
  rwa [Tree.get?_root] at hgives

/-- An object of keywords, none of them `if`. -/
theorem Value.Still.of_keywords (entries : List (BuiltIn × Value))
    (plain : ∀ e ∈ entries, e.1 ≠ .conditional ∧ e ≠ (.required, .bool true))
    (nested : ∀ e ∈ entries, ∀ v ∈ e.1.schemas e.2, v.Still) :
    Value.Still (.object (entries.map fun e => (e.1.name, e.2))) := by
  refine .object (List.forall_mem_map.2 fun e he => ?_) (List.forall_mem_map.2 fun e he k hk => ?_)
    fun hif => ?_
  · have hname := e.1.name_not_reserved.1
    refine ⟨fun h => hname ?_, fun h => hname ?_, fun h => (plain e he).2 ?_⟩
    · rw [show e.1.name = "default" from h]
      decide
    · rw [show e.1.name = "filter" from h]
      decide
    · obtain ⟨hk, hv⟩ := Prod.mk.inj h
      exact Prod.ext (BuiltIn.name_inj hk) hv
  · rw [BuiltIn.name_inj hk]
    exact nested e he
  · rw [Dict.keys, List.map_map, List.mem_map] at hif
    obtain ⟨e, he, hname⟩ := hif
    exact absurd (BuiltIn.name_inj (l := .conditional) hname) (plain e he).1

/-- Empty arrays, and objects in which the count, if there is one, is a number from 5 on, and nothing
else is a text. -/
def openSchema : Value :=
  .object [("properties", .object [("count", .object [("minimum", .nat 5)])]),
    ("anyOf", .array [.object [("type", .string "array"), ("items", .bool false)],
      .object [("additionalProperties",
        .object [("not", .object [("type", .string "string")])])]])]

def openRule : Rule :=
  .node "#" [.leaf (.annotations none [] {}),
    .properties [.mk "count" false (.node "#/properties/count"
      [.leaf (.annotations none [] {}), .leaf (.bound .minimum (.int 5))] {} {})],
    .anyOf
      [.node "#/anyOf/0" [.leaf (.annotations none [] {}), .leaf (.type [.array]),
          .items (.node "#/anyOf/0/items" [.leaf .never] {} {})] {} {},
        .node "#/anyOf/1" [.leaf (.annotations none [] {}), .additional []
          (.node "#/anyOf/1/additionalProperties" [.leaf (.annotations none [] {}), .excluded
            (.node "#/anyOf/1/additionalProperties/not" [.leaf (.annotations none [] {}),
              .leaf (.type [.string])] {} {})] {} {})] {} {}]] {} {}

theorem openSchema_still : openSchema.Still := by
  have hcount : Value.Still (.object [("minimum", .nat 5)]) :=
    .of_keywords [(.bound .minimum, .nat 5)] (by simp) (by simp [BuiltIn.schemas])
  have htype : Value.Still (.object [("type", .string "string")]) :=
    .of_keywords [(.type, .string "string")] (by simp) (by simp [BuiltIn.schemas])
  have hnot : Value.Still (.object [("not", .object [("type", .string "string")])]) :=
    .of_keywords [(.excluded, _)] (by simp) (by simpa [BuiltIn.schemas] using htype)
  have hempty : Value.Still (.object [("type", .string "array"), ("items", .bool false)]) :=
    .of_keywords [(.type, _), (.items, _)] (by simp)
      (by simpa [BuiltIn.schemas] using .bool false)
  have hothers : Value.Still (.object [("additionalProperties",
      .object [("not", .object [("type", .string "string")])])]) :=
    .of_keywords [(.additionalProperties, _)] (by simp) (by simpa [BuiltIn.schemas] using hnot)
  refine .of_keywords [(.properties, .object [("count", _)]), (.anyOf, .array _)] (by simp) ?_
  simpa [BuiltIn.schemas] using ⟨hcount, hempty, hothers⟩

/-- A count that is too small fails, although the second branch passes. -/
theorem evaluation_is_reading_open :
    ∃ o, openRule.evaluateDetached {} (fun _ => false)
        (some (.object [("count", .nat 3)])) = .finished o (some (.object [("count", .nat 3)])) ∧
      o.valid = some false :=
  evaluation_is_reading (show compile .standard openSchema = .ok openRule from rfl)
    openSchema_still rfl rfl _ _

end Conform
