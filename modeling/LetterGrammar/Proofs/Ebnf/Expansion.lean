import LetterGrammar.Ebnf.Reader
import LetterGrammar.Proofs.Canonical
import Mathlib.Computability.Language

/-!
# What an expression stands for

An expression denotes a set of bodies: alternatives denote a union, and members in a row all
concatenations. Expansion lists that set, for the expressions in which every node is supported, and
collects the letters of the literals on its way. Members are expanded one after another, in alternatives
and in rows alike, and the two differ in how the lists of bodies are joined.

## Contents

- **`Expression.nodes`**, **`Expression.IsSupported`**: the nodes of an expression, and which of them can
  be expanded.
- **`Expression.denotation`**: the bodies an expression stands for.
- **`Expression.memberInduction`**: induction on an expression, with a hypothesis for each member.
- **`Meets`**, **`Meets.andThen`**: what an expansion has to return, and that one expansion after another
  returns it.
- **`meets_expand`**: every expansion returns it.
-/

namespace LetterGrammar
namespace Ebnf

/-! ## Nodes and denotation -/

mutual

/-- The nodes of an expression, itself included, in the order of the text. -/
def Expression.nodes : Expression → List Expression
  | .nothing => [.nothing]
  | .alternative members => .alternative members :: nodesOfAll members
  | .sequence members => .sequence members :: nodesOfAll members
  | .group body => .group body :: body.nodes
  | .option body => .option body :: body.nodes
  | .repetition place body => .repetition place body :: body.nodes
  | .name place text => [.name place text]
  | .token place value => [.token place value]
  | .range place => [.range place]
  | .bad place => [.bad place]

/-- The nodes of a list of expressions. -/
def nodesOfAll : List Expression → List Expression
  | [] => []
  | e :: rest => e.nodes ++ nodesOfAll rest

end

/-- The node is no repetition, no range and not unknown; a name is a single upper-case letter, and a
    literal has lower-case letters only. Nothing is said about the nodes below. -/
def Expression.IsSupported : Expression → Prop
  | .repetition _ _ => False
  | .range _ => False
  | .bad _ => False
  | .name _ text => text.toList.length = 1 ∧ ∀ c ∈ text.toList, (Symbol.ofChar c).isUpper = true
  | .token _ value => ∀ s ∈ literalBody value, s.isLower = true
  | .nothing => True
  | .alternative _ => True
  | .sequence _ => True
  | .group _ => True
  | .option _ => True

instance (e : Expression) : Decidable e.IsSupported :=
  match e with
  | .repetition _ _ => inferInstanceAs (Decidable False)
  | .range _ => inferInstanceAs (Decidable False)
  | .bad _ => inferInstanceAs (Decidable False)
  | .name _ text => @instDecidableAnd _ _ (Nat.decEq _ 1) (text.toList.decidableBAll _)
  | .token _ value => (literalBody value).decidableBAll _
  | .nothing => inferInstanceAs (Decidable True)
  | .alternative _ => inferInstanceAs (Decidable True)
  | .sequence _ => inferInstanceAs (Decidable True)
  | .group _ => inferInstanceAs (Decidable True)
  | .option _ => inferInstanceAs (Decidable True)

/-- The letters of a literal; other nodes have none of their own. -/
def Expression.ownLetters : Expression → Body
  | .token _ value => literalBody value
  | _ => []

/-- The letters of the literals among some nodes. -/
def lettersOf (nodes : List Expression) : Body := nodes.flatMap Expression.ownLetters

mutual

/-- The bodies an expression stands for. -/
def Expression.denotation : Expression → Language Symbol
  | .nothing => 1
  | .alternative members => denotationOfAny members
  | .sequence members => denotationOfRow members
  | .group body => body.denotation
  | .option body => body.denotation + 1
  | .name _ text => {Body.ofText text}
  | .token _ value => {literalBody value}
  | .repetition _ _ => 0
  | .range _ => 0
  | .bad _ => 0

/-- The bodies of any one of some expressions. -/
def denotationOfAny : List Expression → Language Symbol
  | [] => 0
  | e :: rest => e.denotation + denotationOfAny rest

/-- The bodies of expressions in a row: a body of each, put together in order. -/
def denotationOfRow : List Expression → Language Symbol
  | [] => 1
  | e :: rest => e.denotation * denotationOfRow rest

end

/-- Induction on an expression, with a hypothesis for each member of alternatives and sequences. -/
@[elab_as_elim]
theorem Expression.memberInduction {motive : Expression → Prop}
    (nothing : motive .nothing)
    (alternative : ∀ members, (∀ e ∈ members, motive e) → motive (.alternative members))
    (sequence : ∀ members, (∀ e ∈ members, motive e) → motive (.sequence members))
    (group : ∀ body, motive body → motive (.group body))
    (option : ∀ body, motive body → motive (.option body))
    (repetition : ∀ place body, motive (.repetition place body))
    (name : ∀ place text, motive (.name place text))
    (token : ∀ place value, motive (.token place value))
    (range : ∀ place, motive (.range place))
    (bad : ∀ place, motive (.bad place)) (e : Expression) : motive e :=
  match e with
  | .nothing => nothing
  | .alternative members => alternative members fun e _ =>
      memberInduction nothing alternative sequence group option repetition name token range bad e
  | .sequence members => sequence members fun e _ =>
      memberInduction nothing alternative sequence group option repetition name token range bad e
  | .group body => group body
      (memberInduction nothing alternative sequence group option repetition name token range bad body)
  | .option body => option body
      (memberInduction nothing alternative sequence group option repetition name token range bad body)
  | .repetition place body => repetition place body
  | .name place text => name place text
  | .token place value => token place value
  | .range place => range place
  | .bad place => bad place

/-! ## One expansion after another -/

/-- Letters that are collected one body after another are collected all at once. -/
theorem collect_collect (terminals : List Symbol) (a b : Body) :
    collect (collect terminals a) b = collect terminals (a ++ b) := by
  unfold collect
  rw [distinctOn_id_eq, distinctOn_id_eq, distinctOn_id_eq, List.filter_append, List.eraseDups_append,
    List.append_assoc]
  unfold List.removeAll
  rw [List.filter_filter]
  congr 3
  apply List.filter_congr
  intro s _
  -- a letter is new to both lists if it is neither among the terminals nor in the first body
  by_cases hs : s ∈ terminals <;> simp [hs]

/-- What an expansion has to return for nodes that together denote a set of bodies: a list of that set,
    and the letters of the nodes collected, or a fault if some node is not supported. -/
def Meets (nodes : List Expression) (bodies : Language Symbol) (terminals : List Symbol) :
    Except Fault (List Body × List Symbol) → Prop
  | .ok (found, used) =>
    (∀ x ∈ nodes, x.IsSupported) ∧ (∀ b, b ∈ found ↔ b ∈ bodies) ∧
      used = collect terminals (lettersOf nodes)
  | .error _ => ¬ ∀ x ∈ nodes, x.IsSupported

/-- One expansion after another: the second one starts from the letters that the first one has collected,
    and the lists of bodies are joined. -/
def inTurn (join : List Body → List Body → List Body) (result : Except Fault (List Body × List Symbol))
    (next : List Symbol → Except Fault (List Body × List Symbol)) :
    Except Fault (List Body × List Symbol) :=
  match result with
  | .error f => .error f
  | .ok (bs, used) =>
    match next used with
    | .error f => .error f
    | .ok (cs, used) => .ok (join bs cs, used)

namespace Meets

variable {nodes nodes' : List Expression} {L L' : Language Symbol} {terminals : List Symbol}
  {result : Except Fault (List Body × List Symbol)}

/-- A node above the others that is supported and has no letters changes nothing. -/
theorem under (h : Meets nodes L terminals result) {e : Expression} (he : e.IsSupported)
    (hown : e.ownLetters = []) : Meets (e :: nodes) L terminals result := by
  have hiff : (∀ x ∈ e :: nodes, x.IsSupported) ↔ ∀ x ∈ nodes, x.IsSupported := by
    rw [List.forall_mem_cons]
    exact ⟨And.right, fun hall => ⟨he, hall⟩⟩
  have hletters : lettersOf (e :: nodes) = lettersOf nodes := by
    unfold lettersOf
    rw [List.flatMap_cons, hown, List.nil_append]
  cases result with
  | error f => exact fun hall => h (hiff.mp hall)
  | ok r =>
      obtain ⟨hall, hfound, hused⟩ := h
      exact ⟨hiff.mpr hall, hfound, by rw [hused, hletters]⟩

/-- A node that is not supported has to be a fault. -/
theorem refused {e : Expression} (he : ¬ e.IsSupported) (f : Fault) :
    Meets (e :: nodes) L terminals (.error f) :=
  fun hall => he (hall e List.mem_cons_self)

/-- **One expansion after another** returns what the two have to return together. -/
theorem andThen {next : List Symbol → Except Fault (List Body × List Symbol)}
    (join : List Body → List Body → List Body) {joined : Language Symbol}
    (h : Meets nodes L terminals result) (hnext : ∀ used, Meets nodes' L' used (next used))
    (hjoin : ∀ bs cs, (∀ b, b ∈ bs ↔ b ∈ L) → (∀ c, c ∈ cs ↔ c ∈ L') →
      ∀ b, b ∈ join bs cs ↔ b ∈ joined) :
    Meets (nodes ++ nodes') joined terminals (inTurn join result next) := by
  unfold inTurn
  cases result with
  | error f => exact fun hall => h fun x hx => hall x (List.mem_append_left _ hx)
  | ok r =>
      obtain ⟨hall, hbs, hused⟩ := h
      have hn := hnext r.2
      dsimp only
      cases hrest : next r.2 with
      | error f =>
          rw [hrest] at hn
          exact fun hall' => hn fun x hx => hall' x (List.mem_append_right _ hx)
      | ok r' =>
          rw [hrest] at hn
          obtain ⟨hall', hcs, hused'⟩ := hn
          refine ⟨List.forall_mem_append.mpr ⟨hall, hall'⟩, hjoin r.1 r'.1 hbs hcs, ?_⟩
          rw [hused', hused, collect_collect]
          unfold lettersOf
          rw [List.flatMap_append]

end Meets

/-! ## Expansion -/

theorem collect_nil (terminals : List Symbol) : collect terminals [] = terminals :=
  List.append_nil terminals

theorem expandAlternatives_cons (e : Expression) (rest : List Expression) (terminals : List Symbol) :
    expandAlternatives (e :: rest) terminals
      = inTurn (· ++ ·) (expand e terminals) (expandAlternatives rest) := by
  unfold expandAlternatives
  rfl

theorem expandSequence_cons (e : Expression) (rest : List Expression) (terminals : List Symbol) :
    expandSequence (e :: rest) terminals
      = inTurn (fun heads tails => heads.flatMap fun b => tails.map (b ++ ·)) (expand e terminals)
          (expandSequence rest) := by
  unfold expandSequence
  rfl

theorem meets_alternatives {members : List Expression}
    (h : ∀ e ∈ members, ∀ used, Meets e.nodes e.denotation used (expand e used))
    (terminals : List Symbol) :
    Meets (nodesOfAll members) (denotationOfAny members) terminals
      (expandAlternatives members terminals) := by
  induction members generalizing terminals with
  | nil =>
      unfold nodesOfAll denotationOfAny expandAlternatives
      exact ⟨fun x hx => absurd hx List.not_mem_nil, fun b => by simp, (collect_nil terminals).symm⟩
  | cons e members ih =>
      obtain ⟨he, hrest⟩ := List.forall_mem_cons.mp h
      unfold nodesOfAll denotationOfAny
      rw [expandAlternatives_cons]
      apply Meets.andThen _ (he terminals) (ih hrest)
      intro bs cs hbs hcs b
      rw [List.mem_append, hbs, hcs]
      exact (Language.mem_add _ _ b).symm

theorem meets_sequence {members : List Expression}
    (h : ∀ e ∈ members, ∀ used, Meets e.nodes e.denotation used (expand e used))
    (terminals : List Symbol) :
    Meets (nodesOfAll members) (denotationOfRow members) terminals
      (expandSequence members terminals) := by
  induction members generalizing terminals with
  | nil =>
      unfold nodesOfAll denotationOfRow expandSequence
      exact ⟨fun x hx => absurd hx List.not_mem_nil, fun b => by simp, (collect_nil terminals).symm⟩
  | cons e members ih =>
      obtain ⟨he, hrest⟩ := List.forall_mem_cons.mp h
      unfold nodesOfAll denotationOfRow
      rw [expandSequence_cons]
      apply Meets.andThen _ (he terminals) (ih hrest)
      intro bs cs hbs hcs b
      simp only [List.mem_flatMap, List.mem_map, hbs, hcs]
      exact Language.mem_mul.symm

/-- A name stands for a nonterminal exactly when it is a single upper-case letter. -/
theorem nonterminal_eq_ok_iff {place : Position} {text : String} {nt : Symbol} :
    nonterminal place text = .ok nt ↔
      ∃ c, text.toList = [c] ∧ (Symbol.ofChar c).isUpper = true ∧ nt = Symbol.ofChar c := by
  unfold nonterminal
  constructor
  · intro h
    split at h
    · rename_i c hc
      split at h
      · rename_i hup
        injection h with h
        exact ⟨c, hc, hup, h.symm⟩
      · cases h
    · cases h
  · rintro ⟨c, hc, hup, rfl⟩
    rw [hc]
    dsimp only
    rw [if_pos hup]

/-- **Every expansion returns what it has to.** -/
theorem meets_expand (e : Expression) (terminals : List Symbol) :
    Meets e.nodes e.denotation terminals (expand e terminals) := by
  induction e using Expression.memberInduction generalizing terminals with
  | nothing =>
      unfold expand Expression.nodes Expression.denotation
      refine ⟨List.forall_mem_singleton.mpr trivial, fun b => ?_, (collect_nil terminals).symm⟩
      rw [List.mem_singleton, Language.mem_one]
  | alternative members ih =>
      unfold expand Expression.nodes Expression.denotation
      exact (meets_alternatives ih terminals).under trivial rfl
  | sequence members ih =>
      unfold expand Expression.nodes Expression.denotation
      exact (meets_sequence ih terminals).under trivial rfl
  | group body ih =>
      unfold expand Expression.nodes Expression.denotation
      exact (ih terminals).under trivial rfl
  | option body ih =>
      have hbody := ih terminals
      unfold expand Expression.nodes Expression.denotation
      refine Meets.under (e := .option body) ?_ trivial rfl
      cases hrun : expand body terminals with
      | error f =>
          rw [hrun] at hbody
          exact hbody
      | ok r =>
          rw [hrun] at hbody
          obtain ⟨hall, hfound, hused⟩ := hbody
          refine ⟨hall, fun b => ?_, hused⟩
          rw [List.mem_append, hfound, List.mem_singleton, Language.mem_add, Language.mem_one]
  | repetition place body =>
      unfold expand Expression.nodes
      exact .refused id _
  | name place text =>
      unfold expand Expression.nodes Expression.denotation
      cases hnt : nonterminal place text with
      | error f =>
          refine .refused ?_ f
          rintro ⟨hlen, hup⟩
          obtain ⟨c, hc⟩ := List.length_eq_one_iff.mp hlen
          rw [nonterminal_eq_ok_iff.mpr ⟨c, hc, hup c (by rw [hc]; exact List.mem_singleton_self c), rfl⟩]
            at hnt
          cases hnt
      | ok nt =>
          obtain ⟨c, hc, hup, rfl⟩ := nonterminal_eq_ok_iff.mp hnt
          have hbody : Body.ofText text = [Symbol.ofChar c] := by
            unfold Body.ofText
            rw [hc]
            rfl
          have hsupp : (Expression.name place text).IsSupported := by
            show text.toList.length = 1 ∧ ∀ c ∈ text.toList, (Symbol.ofChar c).isUpper = true
            rw [hc]
            exact ⟨rfl, List.forall_mem_singleton.mpr hup⟩
          refine ⟨List.forall_mem_singleton.mpr hsupp, fun b => ?_, (collect_nil terminals).symm⟩
          rw [hbody]
          exact List.mem_singleton
  | token place value =>
      unfold expand Expression.nodes Expression.denotation
      have hiff : (∀ x ∈ [Expression.token place value], x.IsSupported) ↔
          (literalBody value).all Symbol.isLower = true := by
        rw [List.forall_mem_singleton, List.all_eq_true]
        rfl
      by_cases hall : (literalBody value).all Symbol.isLower = true
      · rw [if_pos hall]
        refine ⟨hiff.mpr hall, fun b => List.mem_singleton, ?_⟩
        unfold lettersOf
        rw [List.flatMap_singleton]
        rfl
      · rw [if_neg hall]
        exact fun h => hall (hiff.mp h)
  | range place =>
      unfold expand Expression.nodes
      exact .refused id _
  | bad place =>
      unfold expand Expression.nodes
      exact .refused id _

/-- **Expansion computes what an expression stands for.** It succeeds exactly when every node is
    supported. Then the bodies it returns are those of the denotation, and the terminals are extended by
    the letters of the literals that were not among them, each once, in the order of the text. -/
theorem expand_computes_denotation (e : Expression) (terminals : List Symbol) :
    ((∃ bodies used, expand e terminals = .ok (bodies, used)) ↔ ∀ x ∈ e.nodes, x.IsSupported) ∧
    ∀ bodies used, expand e terminals = .ok (bodies, used) →
      (∀ b, b ∈ bodies ↔ b ∈ e.denotation) ∧
      used = terminals ++ ((lettersOf e.nodes).filter fun s => !terminals.contains s).eraseDups := by
  have h := meets_expand e terminals
  cases hrun : expand e terminals with
  | error f =>
      rw [hrun] at h
      refine ⟨⟨?_, fun hall => absurd hall h⟩, ?_⟩
      · rintro ⟨_, _, hok⟩
        cases hok
      · intro _ _ hok
        cases hok
  | ok r =>
      rw [hrun] at h
      obtain ⟨hall, hfound, hused⟩ := h
      refine ⟨⟨fun _ => hall, fun _ => ⟨r.1, r.2, rfl⟩⟩, ?_⟩
      intro bodies used hok
      cases hok
      refine ⟨hfound, hused.trans ?_⟩
      unfold collect
      rw [distinctOn_id_eq]

/-- A choice in brackets, followed by a letter that may be left out: `( "ab" | S ) [ "c" ]`. -/
def bracketedChoice : Expression :=
  let place := Position.start ""
  .sequence [.group (.alternative [.token place (Glyph.ofString "ab"), .name place "S"]),
    .option (.token place (Glyph.ofString "c"))]

theorem expand_computes_denotation_bracketedChoice :
    ∃ bodies used, expand bracketedChoice (Body.ofText "b") = .ok (bodies, used) ∧
      Body.ofText "Sc" ∈ bodies ∧ used = Body.ofText "bac" := by
  obtain ⟨hiff, hresult⟩ := expand_computes_denotation bracketedChoice (Body.ofText "b")
  have hnodes : ∀ x ∈ bracketedChoice.nodes, x.IsSupported := by decide
  have hbody : Body.ofText "Sc" ∈ bracketedChoice.denotation := by
    refine Language.mem_mul.mpr ⟨Body.ofText "S", ?_, Body.ofText "c", ?_, by decide⟩
    · exact Or.inr (Or.inl rfl)
    · exact Language.mem_mul.mpr ⟨Body.ofText "c", Or.inl rfl, [], rfl, by decide⟩
  obtain ⟨bodies, used, hok⟩ := hiff.mpr hnodes
  obtain ⟨hbodies, hused⟩ := hresult bodies used hok
  exact ⟨bodies, used, hok, (hbodies _).mpr hbody, hused.trans (by decide)⟩

end Ebnf
end LetterGrammar
