import Conform.Proofs.Probe
import Conform.Proofs.Reading

/-!
# Whose text stands

The text of a failure is looked up where the failure is met, and again on every node around it that
takes the failure over: by the keyword that has failed, first among the texts of that node and then
among the caller's. So the text of the node that fails stands only as long as nobody further out
has one. Main statement: where no node around it has a text for the keyword, a failure that is
taken over has the caller's text, and the text of its own node if the caller has none.
-/

namespace Conform

/-- The text that a node itself has for a failure of a keyword. -/
def NodeMessages.errorText (m : NodeMessages) (keyword : Option String) : Option String :=
  m.error <|> messageFor m.errors keyword

theorem NodeMessages.resolve_failure (m : NodeMessages) (caller : Messages) {o : Outcome}
    (h : o.isInvalid = true) :
    (m.resolve caller o).message =
      (m.errorText o.keyword <|> messageFor caller.errors o.keyword <|> o.message) := by
  have hv : o.valid = some false := of_decide_eq_true h
  simp only [resolve, hv, errorText]
  cases m.error <;> cases messageFor m.errors o.keyword <;>
    cases messageFor caller.errors o.keyword <;> rfl

/-- What a walk works on when it is no trial: a tree of its own, or a run. -/
inductive Ground where
  | tree (t : Tree)
  | run (p : Progress)

/-- The value at a place. -/
def Ground.view (r : Route) : Ground → Option Value
  | tree t => t.get? r
  | run p => p.model.tree.get? r

namespace Walk

/-- With the gates given, the walk comes to an outcome on one ground and leaves another. -/
inductive Comes (isOpen : String → Bool) (w : Walk) : Ground → Outcome → Ground → Prop
  | tree {t t' : Tree} {o : Outcome} (h : w.detached isOpen t = .finished o t') :
      Comes isOpen w (.tree t) o (.tree t')
  | run {p p' : Progress} {o : Outcome} (h : w.drive isOpen p = .done o p') :
      Comes isOpen w (.run p) o (.run p')

variable {isOpen : String → Bool} {w : Walk} {h h₁ h' : Ground} {o o' : Outcome}

theorem drive_andThen {p p' : Progress} {k : Outcome → Walk}
    (hd : w.drive isOpen p = .done o p') :
    (w.andThen k).drive isOpen p = (k o).drive isOpen p' := by
  induction w generalizing p with
  | done o =>
    cases hd
    rfl
  | fail e => cases hd
  | read r next ih => exact ih _ hd
  | write r v next ih =>
    simp only [andThen, drive] at hd ⊢
    split at hd
    · cases hd
    · exact ih hd
  | await g next ih =>
    simp only [andThen, drive] at hd ⊢
    split at hd
    · next ho =>
      rw [if_pos ho]
      exact ih hd
    · cases hd
  | visit r d hint body next _ ih =>
    simp only [andThen, drive] at hd ⊢
    split at hd
    · exact ih _ hd
    · split at hd
      · exact ih _ hd
      · cases hd
      · cases hd
    · split at hd
      · exact ih _ hd
      · cases hd
      · cases hd

theorem Ends.drive {P : Outcome → Prop} (he : w.Ends P) {p p' : Progress}
    (hd : w.drive isOpen p = .done o p') : P o := by
  induction w generalizing p with
  | done o =>
    cases hd
    exact he
  | fail e => cases hd
  | read r next ih => exact ih _ (he _) hd
  | write r v next ih =>
    simp only [Walk.drive] at hd
    split at hd
    · cases hd
    · exact ih he hd
  | await g next ih =>
    simp only [Walk.drive] at hd
    split at hd
    · exact ih he hd
    · cases hd
  | visit r d hint body next _ ih =>
    simp only [Walk.drive] at hd
    split at hd
    · exact ih _ (he _) hd
    · split at hd
      · exact ih _ (he _) hd
      · cases hd
      · cases hd
    · split at hd
      · exact ih _ (he _) hd
      · cases hd
      · cases hd

theorem Ends.comes {P : Outcome → Prop} (he : w.Ends P) (hc : w.Comes isOpen h o h') : P o := by
  cases hc with
  | tree hd => exact he.detached hd
  | run hd => exact he.drive hd

theorem Comes.done (h : Ground) : (done o).Comes isOpen h o h := by
  cases h with
  | tree t => exact .tree rfl
  | run p => exact .run rfl

theorem Comes.andThen {k : Outcome → Walk} (hw : w.Comes isOpen h o h₁)
    (hk : (k o).Comes isOpen h₁ o' h') : (w.andThen k).Comes isOpen h o' h' := by
  cases hw with
  | tree hd =>
    cases hk with
    | tree hk => exact .tree ((detached_andThen hd).trans hk)
  | run hd =>
    cases hk with
    | run hk => exact .run ((drive_andThen hd).trans hk)

/-- After a probe the ground is as it was, and the walk goes on with what was tried. -/
theorem Comes.probe {w : Walker} {route : Route} {k : Outcome → Walk}
    (tries : w.Tries route (h.view route) o) (hk : (k o).Comes isOpen h o' h') :
    (w.probe route k).Comes isOpen h o' h' := by
  obtain ⟨c, hc⟩ := tries
  cases hc with
  | copy hc =>
    cases hk with
    | @tree t _ _ hk =>
      exact .tree ((congrArg (detached isOpen · t) (hc fun o _ => k o)).trans hk)
    | @run p _ _ hk => exact .run ((congrArg (drive isOpen · p) (hc fun o _ => k o)).trans hk)

end Walk

/-- The texts of the node itself. -/
def Rule.messages : Rule → NodeMessages
  | node _ _ messages _ => messages

section

variable (options : EvalOptions) (isOpen : String → Bool) (route : Route)

/-- The rule comes to an outcome at the place. -/
def Rule.Comes (r : Rule) (h : Ground) (o : Outcome) (h' : Ground) : Prop :=
  (r.walk options .full route).Comes isOpen h o h'

/-- The check comes to an outcome at the place, attributed to its keyword. -/
def Check.Comes (c : Check) (h : Ground) (o : Outcome) (h' : Ground) : Prop :=
  ∃ u, (c.walk options .full route).Comes isOpen h u h' ∧ o = u.attributed c.keyword

/-- Some things come to their outcomes one after the other. -/
inductive InTurn {α : Type} (comes : α → Ground → Outcome → Ground → Prop) :
    List α → Ground → List Outcome → Ground → Prop
  | nil (h : Ground) : InTurn comes [] h [] h
  | cons {a : α} {as : List α} {h h₁ h' : Ground} {o : Outcome} {os : List Outcome}
      (first : comes a h o h₁) (rest : InTurn comes as h₁ os h') :
      InTurn comes (a :: as) h (o :: os) h'

mutual

/-- The rule comes to an outcome of which a failure of `origin` is the first invalid result, handed
on at one and the same place through the nodes listed, the outermost first. -/
inductive Rule.Hands (origin : Rule) (failure : Outcome) :
    Rule → List Rule → Ground → Outcome → Ground → Prop
  | origin {h h' : Ground} (comes : origin.Comes options isOpen route h failure h') :
      Rule.Hands origin failure origin [] h failure h'
  | node {location : String} (before after : List Check) {c : Check} {messages : NodeMessages}
      {declaration : Declaration} {through : List Rule} {h h₁ h₂ h' : Ground} {o : Outcome}
      {us vs : List Outcome}
      (earlier : InTurn (Check.Comes options isOpen route) before h us h₁)
      (valid : ∀ u ∈ us, u.isInvalid = false)
      (check : Check.Hands origin failure c through h₁ o h₂)
      (later : InTurn (Check.Comes options isOpen route) after h₂ vs h') :
      Rule.Hands origin failure (.node location (before ++ c :: after) messages declaration)
        (.node location (before ++ c :: after) messages declaration :: through) h
        (messages.resolve options.messages (Outcome.merge (us ++ o :: vs))) h'

inductive Check.Hands (origin : Rule) (failure : Outcome) :
    Check → List Rule → Ground → Outcome → Ground → Prop
  | allOf (before after : List Rule) {r : Rule} {through : List Rule} {h h₁ h₂ h' : Ground}
      {o : Outcome} {us vs : List Outcome}
      (earlier : InTurn (Rule.Comes options isOpen route) before h us h₁)
      (valid : ∀ u ∈ us, u.isInvalid = false)
      (branch : Rule.Hands origin failure r through h₁ o h₂)
      (later : InTurn (Rule.Comes options isOpen route) after h₂ vs h') :
      Check.Hands origin failure (.allOf (before ++ r :: after)) through h
        ((Outcome.merge (us ++ o :: vs)).attributed "allOf") h'
  | conditional {condition r : Rule} {met unmet : Option Rule} {through : List Rule}
      {h h' : Ground} {u o : Outcome}
      (tried : (condition.walker options).Tries route (h.view route) u)
      (chosen : (if u.passes then met else unmet) = some r)
      (branch : Rule.Hands origin failure r through h o h') :
      Check.Hands origin failure (.conditional condition met unmet) through h
        (o.attributed "if") h'

end

end

section

variable {options : EvalOptions} {isOpen : String → Bool} {route : Route}

theorem InTurn.append {α : Type} {comes : α → Ground → Outcome → Ground → Prop} {as bs : List α}
    {h h₁ h' : Ground} {os us : List Outcome} (first : InTurn comes as h os h₁)
    (second : InTurn comes bs h₁ us h') : InTurn comes (as ++ bs) h (os ++ us) h' := by
  induction first with
  | nil h => exact second
  | cons hfirst _ ih => exact .cons hfirst (ih second)

theorem Check.runAll_comes {f : List Outcome → Outcome} {checks : List Check} {h h' : Ground}
    {os : List Outcome} (hc : InTurn (Check.Comes options isOpen route) checks h os h')
    (us : List Outcome) :
    (runAll .full route (fun os => .done (f os)) us (readyChecks options checks)).Comes isOpen h
      (f (us ++ os)) h' := by
  rw [readyChecks_eq_map]
  induction hc generalizing us with
  | nil h =>
    rw [List.append_nil]
    exact .done h
  | @cons c cs h h₁ h' o os first _ ih =>
    obtain ⟨u, hu, rfl⟩ := first
    have hih := ih (us ++ [u.attributed c.keyword])
    rw [List.append_assoc, List.singleton_append] at hih
    exact Walk.Comes.andThen hu hih

theorem Check.allOfWalk_comes {branches : List Rule} {h h' : Ground} {os : List Outcome}
    (hb : InTurn (Rule.Comes options isOpen route) branches h os h') (us : List Outcome) :
    (allOfWalk .full route us (branches.map (Rule.walker options))).Comes isOpen h
      (Outcome.merge (us ++ os)) h' := by
  induction hb generalizing us with
  | nil h =>
    rw [List.append_nil]
    exact .done h
  | @cons r rs h h₁ h' o os first _ ih =>
    have hih := ih (us ++ [o])
    rw [List.append_assoc, List.singleton_append] at hih
    exact Walk.Comes.andThen first hih

mutual

/-- What is handed on is what the rule comes to. -/
theorem Rule.Hands.comes {origin r : Rule} {failure o : Outcome} {through : List Rule}
    {h h' : Ground} (hands : Rule.Hands options isOpen route origin failure r through h o h') :
    r.Comes options isOpen route h o h' := by
  match hands with
  | .origin comes => exact comes
  | .node _ _ earlier _ check later =>
    have hchecks := earlier.append (.cons check.comes later)
    rw [Rule.Comes, Rule.walk]
    exact Check.runAll_comes hchecks []

theorem Check.Hands.comes {origin : Rule} {failure o : Outcome} {c : Check} {through : List Rule}
    {h h' : Ground} (hands : c.Hands options isOpen route origin failure through h o h') :
    c.Comes options isOpen route h o h' := by
  match hands with
  | .allOf _ _ earlier _ branch later =>
    have hbranches := earlier.append (.cons branch.comes later)
    refine ⟨_, ?_, rfl⟩
    rw [Check.walk, walkersOf_eq_map]
    exact Check.allOfWalk_comes hbranches []
  | .conditional tried chosen branch =>
    refine ⟨_, ?_, rfl⟩
    rw [Check.walk, walkerOf?_eq_map, walkerOf?_eq_map]
    refine Walk.Comes.probe tried ?_
    rw [← apply_ite, chosen]
    exact branch.comes

end

/-- What a rule comes to has the texts of its node put in. -/
theorem Rule.Comes.resolved {r : Rule} {h h' : Ground} {o : Outcome}
    (hr : r.Comes options isOpen route h o h') :
    ∃ m, o = r.messages.resolve options.messages m := by
  have hends : (r.walk options .full route).Ends
      fun o => ∃ m, o = r.messages.resolve options.messages m := by
    obtain ⟨location, checks, messages, dependsOn⟩ := r
    rw [Rule.walk]
    refine Check.runAll_ends .full route (fun os => ?_) _ _
    exact ⟨Outcome.merge os, rfl⟩
  exact hends.comes hr

/-- A rule that fails by a keyword for which its node has a text fails with that text. -/
theorem Rule.Comes.own_text {r : Rule} {h h' : Ground} {o : Outcome} {text : String}
    (hr : r.Comes options isOpen route h o h') (failed : o.isInvalid = true)
    (own : r.messages.errorText o.keyword = some text) : o.message = some text := by
  obtain ⟨m, rfl⟩ := hr.resolved
  have failed : m.isInvalid = true := failed
  have own : r.messages.errorText m.keyword = some text := own
  rw [NodeMessages.resolve_failure _ _ failed, own]
  rfl

/-- The text of a failure of a keyword after it has been handed on through some nodes. -/
def handedText (caller : Messages) (keyword text : String) : List Rule → String
  | [] => text
  | _ :: _ => (caller.errors.get? keyword).getD text

/-- A failure of a keyword with the text that it has been handed on with. -/
structure Outcome.Handed (o : Outcome) (caller : Messages) (keyword text : String)
    (through : List Rule) : Prop where
  invalid : o.isInvalid = true
  named : o.keyword = some keyword
  message : o.message = some (handedText caller keyword text through)

namespace Outcome.Handed

variable {o : Outcome} {caller : Messages} {keyword text : String} {through : List Rule}

theorem attributed (h : o.Handed caller keyword text through) (k : String) :
    (o.attributed k).Handed caller keyword text through where
  invalid := h.invalid
  named := by
    rw [Outcome.attributed, h.named]
    rfl
  message := h.message

theorem merge (h : o.Handed caller keyword text through) {us : List Outcome}
    (valid : ∀ u ∈ us, u.isInvalid = false) (vs : List Outcome) :
    (Outcome.merge (us ++ o :: vs)).Handed caller keyword text through := by
  obtain ⟨hv, hm, hk⟩ := merge_failure_first valid h.invalid vs
  refine ⟨?_, hk.trans h.named, hm.trans h.message⟩
  rw [isInvalid, hv]
  exact h.invalid

/-- A node without a text of its own puts in the caller's. -/
theorem resolve (h : o.Handed caller keyword text through) {r : Rule}
    (silent : r.messages.errorText (some keyword) = none) :
    (r.messages.resolve caller o).Handed caller keyword text (r :: through) where
  invalid := h.invalid
  named := h.named
  message := by
    have hcaller : messageFor caller.errors (some keyword) = caller.errors.get? keyword := rfl
    rw [NodeMessages.resolve_failure _ _ h.invalid, h.named, silent, h.message, hcaller]
    cases hget : caller.errors.get? keyword with
    | none => cases through <;> simp [handedText, hget]
    | some other => simp [handedText, hget]

end Outcome.Handed

mutual

theorem Rule.Hands.handed {origin r : Rule} {failure o : Outcome} {through : List Rule}
    {h h' : Ground} {keyword text : String}
    (hands : Rule.Hands options isOpen route origin failure r through h o h')
    (failed : failure.isInvalid = true) (named : failure.keyword = some keyword)
    (own : origin.messages.errorText (some keyword) = some text)
    (silent : ∀ node ∈ through, node.messages.errorText (some keyword) = none) :
    o.Handed options.messages keyword text through := by
  match hands with
  | .origin comes =>
    refine ⟨failed, named, comes.own_text failed ?_⟩
    rw [named]
    exact own
  | .node _ _ _ valid check _ =>
    obtain ⟨hnode, hthrough⟩ := List.forall_mem_cons.1 silent
    exact ((check.handed failed named own hthrough).merge valid _).resolve hnode

theorem Check.Hands.handed {origin : Rule} {failure o : Outcome} {c : Check} {through : List Rule}
    {h h' : Ground} {keyword text : String}
    (hands : c.Hands options isOpen route origin failure through h o h')
    (failed : failure.isInvalid = true) (named : failure.keyword = some keyword)
    (own : origin.messages.errorText (some keyword) = some text)
    (silent : ∀ node ∈ through, node.messages.errorText (some keyword) = none) :
    o.Handed options.messages keyword text through := by
  match hands with
  | .allOf _ _ _ valid branch _ =>
    exact ((branch.handed failed named own silent).merge valid _).attributed _
  | .conditional _ _ branch => exact (branch.handed failed named own silent).attributed _

end

/-- The rule of a schema that is nothing but an `allOf` with one branch. -/
def Rule.wrapped (r : Rule) (location : String) : Rule :=
  .node location [.leaf (.annotations none [] {}), .allOf [r]] {} {}

/-- A node that only wraps another hands its failure on. -/
theorem Rule.wrapped_hands {r : Rule} (location : String) {v t : Option Value} {failure : Outcome}
    (fails : r.evaluateDetached options isOpen v = .finished failure t) :
    ∃ o, Rule.Hands options isOpen [] r failure (r.wrapped location) [r.wrapped location]
      (.tree v) o (.tree t) := by
  have hannotations : (Leaf.annotationsWalk none [] {} []).Gives isOpen v none :=
    Leaf.annotationsWalk_gives rfl
  obtain ⟨u, hu, hvalid⟩ := hannotations
  have hearlier : InTurn (Check.Comes options isOpen []) [.leaf (.annotations none [] {})] (.tree v)
      [u.attributed "annotations"] (.tree v) := by
    refine .cons ⟨u, ?_, rfl⟩ (.nil _)
    rw [Check.walk]
    exact .tree hu
  have hvalid : ∀ w ∈ [u.attributed "annotations"], w.isInvalid = false := by
    refine List.forall_mem_singleton.2 ?_
    rw [Outcome.isInvalid, Outcome.attributed, hvalid]
    rfl
  have hbranch : (Check.allOf [r]).Hands options isOpen [] r failure [] (.tree v)
      ((Outcome.merge [failure]).attributed "allOf") (.tree t) :=
    .allOf [] [] (.nil _) (List.forall_mem_nil _) (.origin (.tree fails)) (.nil _)
  exact ⟨_, .node _ [] hearlier hvalid hbranch (.nil _)⟩

/-- **Whose text stands.** Let a node have a text of its own for a keyword. Where its failure by
that keyword is the first invalid result of the nodes around it at the same place, be it through
`allOf` or through a branch of `if`, and none of these nodes has a text for the keyword, the
outermost of them fails by the same keyword. Its text is the node's own as long as nothing is
around the node or the caller has no text for the keyword; else it is the caller's. In particular
an `allOf` of nothing but the node fails with the text of the caller if there is one, and else with
the node's own. -/
theorem text_of_enclosed (origin : Rule) {keyword text : String}
    (own : origin.messages.errorText (some keyword) = some text) (options : EvalOptions) :
    (∀ (isOpen : String → Bool) (route : Route) (r : Rule) (through : List Rule)
      (failure o : Outcome) (h h' : Ground),
      Rule.Hands options isOpen route origin failure r through h o h' →
      failure.isInvalid = true → failure.keyword = some keyword →
      (∀ node ∈ through, node.messages.errorText (some keyword) = none) →
      r.Comes options isOpen route h o h' ∧ o.isInvalid = true ∧ o.keyword = some keyword ∧
        (through = [] ∨ options.messages.errors.get? keyword = none → o.message = some text) ∧
        (through ≠ [] → ∀ other, options.messages.errors.get? keyword = some other →
          o.message = some other)) ∧
    ∀ (isOpen : String → Bool) (location : String) (v t : Option Value) (failure : Outcome),
      origin.evaluateDetached options isOpen v = .finished failure t →
      failure.isInvalid = true → failure.keyword = some keyword →
      ∃ o, (origin.wrapped location).evaluateDetached options isOpen v = .finished o t ∧
        o.message = some ((options.messages.errors.get? keyword).getD text) := by
  refine ⟨fun isOpen route r through failure o h h' hands failed named silent => ?_,
    fun isOpen location v t failure fails failed named => ?_⟩
  · obtain ⟨hinvalid, hnamed, hmessage⟩ := hands.handed failed named own silent
    refine ⟨hands.comes, hinvalid, hnamed, fun hnone => ?_, fun hthrough other hother => ?_⟩
    · rw [hmessage]
      cases through with
      | nil => rfl
      | cons node through =>
        rw [handedText, hnone.resolve_left (List.cons_ne_nil _ _), Option.getD_none]
    · cases through with
      | nil => exact absurd rfl hthrough
      | cons node through => rw [hmessage, handedText, hother, Option.getD_some]
  · obtain ⟨o, hands⟩ := origin.wrapped_hands location fails
    have hhanded := hands.handed failed named own (List.forall_mem_singleton.2 rfl)
    cases hands.comes with
    | tree hd => exact ⟨o, hd, hhanded.message⟩

/-- Numbers from five on; the text for others is the schema's own. -/
def ownTextRule (location : String) : Rule :=
  .node location [.leaf (.annotations none [] {}), .leaf (.bound .minimum (.int 5))]
    { error := some "too small" } {}

def callerTexts : EvalOptions := { messages := { errors := [("minimum", "caller text")] } }

/-- In the one branch of an `allOf`, the text of the caller is handed on, or the node's own if the
caller has none. -/
theorem text_of_enclosed_number :
    (∃ failure o, Rule.Hands callerTexts (fun _ => false) [] (ownTextRule "#/allOf/0") failure
        ((ownTextRule "#/allOf/0").wrapped "#") [(ownTextRule "#/allOf/0").wrapped "#"]
        (.tree (some (.int 1))) o (.tree (some (.int 1))) ∧
      failure.message = some "too small" ∧ o.message = some "caller text") ∧
    ∃ o, ((ownTextRule "#/allOf/0").wrapped "#").evaluateDetached {} (fun _ => false)
        (some (.int 1)) = .finished o (some (.int 1)) ∧ o.message = some "too small" := by
  have own : (ownTextRule "#/allOf/0").messages.errorText (some "minimum") = some "too small" := rfl
  obtain ⟨hhanded, -⟩ := text_of_enclosed (ownTextRule "#/allOf/0") own callerTexts
  obtain ⟨-, hwrapped⟩ := text_of_enclosed (ownTextRule "#/allOf/0") own {}
  refine ⟨?_, hwrapped (fun _ => false) "#" (some (.int 1)) (some (.int 1)) _ rfl rfl rfl⟩
  have fails : (ownTextRule "#/allOf/0").evaluateDetached callerTexts (fun _ => false)
      (some (.int 1)) = .finished _ (some (.int 1)) := rfl
  obtain ⟨o, hands⟩ := Rule.wrapped_hands "#" fails
  obtain ⟨-, -, -, -, hcaller⟩ := hhanded _ _ _ _ _ _ _ _ hands rfl rfl
    (List.forall_mem_singleton.2 rfl)
  exact ⟨_, o, hands, rfl, hcaller (List.cons_ne_nil _ _) "caller text" rfl⟩

/-- A caller's text for the keyword replaces it, as soon as there is a node around it. -/
theorem own_text_replaced :
    compile .standard (.object [("allOf", .array [.object [("minimum", .int 5),
        ("error", .string "too small")]])]) = .ok ((ownTextRule "#/allOf/0").wrapped "#") ∧
      ¬ ∀ (origin : Rule) (options : EvalOptions) (isOpen : String → Bool) (v t : Option Value)
        (failure o : Outcome) (keyword text : String),
        origin.messages.errorText (some keyword) = some text →
        origin.evaluateDetached options isOpen v = .finished failure t →
        failure.isInvalid = true → failure.keyword = some keyword →
        (origin.wrapped "#").evaluateDetached options isOpen v = .finished o t →
        o.message = some text := by
  refine ⟨rfl, fun h => ?_⟩
  have hmessage := h (ownTextRule "#/allOf/0") callerTexts (fun _ => false) (some (.int 1))
    (some (.int 1)) _ _ "minimum" "too small" rfl rfl rfl rfl rfl
  exact absurd hmessage (by decide)

end

end Conform
