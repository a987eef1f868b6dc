import LetterGrammar.Native.File
import LetterGrammar.Proofs.Native.Token

/-!
# The form of a file

Comments and blanks apart, the tokens of a file are marks in a fixed form:

    [ "terminals" ":" [ identifier ] ";" ] { identifier arrow body { "|" body } ";" }

A file is read exactly when its marks have this form, and what is read is what the marks say. The word
`terminals` can also be the head of a rule: which of the two it is shows at the next mark.

## Contents

- **`Mark`**, **`Lexeme.mark?`**: what a token says.
- **`Clause`**, **`fileMarks`**: the form of a file.
- **`Says`**: tokens that say given marks.
- **`alternatives_says`**, **`rule_says`**, **`rules_says`**, **`declaration_says`**: what was read was
  said; each has a converse.
- **`exists_form_of_read`**, **`exists_read_of_form`**: a file is read exactly when it has the form.
-/

namespace LetterGrammar
namespace Native

/-! ## Marks -/

/-- What a token says. The spellings of an arrow all say the same, and so do those of the empty body. -/
inductive Mark
  | ident (text : String)
  | arrow
  | epsilon
  | punct (text : String)
deriving DecidableEq

/-- The mark of a lexeme; comments and blanks say nothing. -/
def Lexeme.mark? (l : Lexeme) : Option Mark :=
  match l.kind with
  | .comment => none
  | .blank => none
  | .arrow => some .arrow
  | .epsilon => some .epsilon
  | .ident => some (.ident l.text)
  | .punct => some (.punct l.text)

/-- The mark of an alternative. -/
def RuleBody.mark : RuleBody → Mark
  | .empty => .epsilon
  | .symbols text => .ident text

/-- A rule as it is written: a head and at least one alternative. -/
structure Clause where
  head : String
  first : RuleBody
  others : List RuleBody

namespace Clause

/-- All alternatives. -/
def bodies (c : Clause) : List RuleBody := c.first :: c.others

/-- The marks after the first alternative. -/
def otherMarks (others : List RuleBody) : List Mark :=
  (others.flatMap fun b => [.punct "|", b.mark]) ++ [.punct ";"]

/-- The marks of a rule. -/
def marks (c : Clause) : List Mark :=
  .ident c.head :: .arrow :: c.first.mark :: otherMarks c.others

end Clause

/-- The marks of a declaration of terminals, which may be missing and may list none. -/
def declarationMarks : Option (Option String) → List Mark
  | none => []
  | some symbols => .ident "terminals" :: .punct ":" :: (symbols.toList.map Mark.ident ++ [.punct ";"])

/-- The marks of a file. -/
def fileMarks (declared : Option (Option String)) (clauses : List Clause) : List Mark :=
  declarationMarks declared ++ clauses.flatMap Clause.marks

/-! ## Tokens and marks -/

/-- The tokens say the marks, one each. -/
def Says (tokens : List Token) (ms : List Mark) : Prop :=
  tokens.map (fun t => t.lexeme.mark?) = ms.map some

variable {t : Token} {tokens after : List Token} {m : Mark} {ms ns : List Mark}

theorem says_nil : Says [] [] := rfl

theorem says_cons_iff : Says tokens (m :: ms) ↔
    ∃ t rest, tokens = t :: rest ∧ t.lexeme.mark? = some m ∧ Says rest ms := by
  unfold Says
  rw [List.map_cons, List.map_eq_cons_iff]

theorem Says.cons (ht : t.lexeme.mark? = some m) (h : Says tokens ms) : Says (t :: tokens) (m :: ms) :=
  says_cons_iff.mpr ⟨t, tokens, rfl, ht, h⟩

theorem says_append_iff : Says tokens (ms ++ ns) ↔
    ∃ as bs, tokens = as ++ bs ∧ Says as ms ∧ Says bs ns := by
  unfold Says
  rw [List.map_append, List.map_eq_append_iff]

theorem Says.append {as bs : List Token} (ha : Says as ms) (hb : Says bs ns) :
    Says (as ++ bs) (ms ++ ns) :=
  says_append_iff.mpr ⟨as, bs, rfl, ha, hb⟩

theorem Says.unique (h : Says tokens ms) (h' : Says tokens ns) : ms = ns := by
  unfold Says at h h'
  rw [h] at h'
  exact (List.map_inj_right fun _ _ => Option.some.inj).mp h'

/-- The tokens that are read further are those that say something. -/
theorem isSignificant_iff : t.isSignificant = true ↔ ∃ m, t.lexeme.mark? = some m := by
  obtain ⟨kind, text, place⟩ := t
  cases kind <;> simp [Token.isSignificant, Token.lexeme, Lexeme.mark?]

/-- The significant tokens say the marks of all of them. -/
theorem says_significant (tokens : List Token) :
    Says (tokens.filter Token.isSignificant) ((tokens.map Token.lexeme).filterMap Lexeme.mark?) := by
  induction tokens with
  | nil => exact says_nil
  | cons t tokens ih =>
      rw [List.map_cons, List.filterMap_cons]
      cases hm : t.lexeme.mark? with
      | none =>
          have hns : ¬ t.isSignificant = true := by
            rw [isSignificant_iff, hm]
            simp
          rw [List.filter_cons_of_neg hns]
          exact ih
      | some m =>
          rw [List.filter_cons_of_pos (isSignificant_iff.mpr ⟨m, hm⟩)]
          exact ih.cons hm

/-! ## What the tests of the reader see -/

theorem body?_eq_some_iff {b : RuleBody} : body? t = some b ↔ t.lexeme.mark? = some b.mark := by
  obtain ⟨kind, text, place⟩ := t
  cases kind <;> cases b <;> simp [body?, Token.lexeme, Lexeme.mark?, RuleBody.mark]

theorem isSign_iff {sign : String} : t.isSign sign = true ↔ t.lexeme.mark? = some (.punct sign) := by
  obtain ⟨kind, text, place⟩ := t
  cases kind <;> simp [Token.isSign, Token.lexeme, Lexeme.mark?]

theorem kind_eq_ident_iff : t.kind = .ident ↔ t.lexeme.mark? = some (.ident t.text) := by
  obtain ⟨kind, text, place⟩ := t
  cases kind <;> simp [Token.lexeme, Lexeme.mark?]

theorem kind_of_mark_ident {text : String} (h : t.lexeme.mark? = some (.ident text)) :
    t.kind = .ident ∧ t.text = text := by
  obtain ⟨kind, text', place⟩ := t
  cases kind <;> simp [Token.lexeme, Lexeme.mark?] at h ⊢
  exact h

theorem kind_eq_arrow_iff : t.kind = .arrow ↔ t.lexeme.mark? = some .arrow := by
  obtain ⟨kind, text, place⟩ := t
  cases kind <;> simp [Token.lexeme, Lexeme.mark?]

/-! ## Alternatives -/

variable {last : Position} {bodies : List RuleBody}

/-- The alternatives that were read are those the tokens say. -/
theorem alternatives_says (h : alternatives last tokens = .ok (bodies, after)) :
    ∃ read, tokens = read ++ after ∧ Says read (Clause.otherMarks bodies) := by
  fun_induction alternatives last tokens generalizing bodies after with
  | case1 => cases h
  | case2 t ht =>
      cases h
      exact ⟨[t], rfl, says_nil.cons (isSign_iff.mp ht)⟩
  | case3 => cases h
  | case4 t u rest ht =>
      cases h
      exact ⟨[t], rfl, says_nil.cons (isSign_iff.mp ht)⟩
  | case5 => cases h
  | case6 => cases h
  | case7 t u rest _ ht b hb bs aft heq ih =>
      cases h
      obtain ⟨read, rfl, hread⟩ := ih heq
      exact ⟨t :: u :: read, rfl, (hread.cons (body?_eq_some_iff.mp hb)).cons (isSign_iff.mp ht)⟩
  | case8 => cases h

/-- Tokens that say alternatives are read as these. -/
theorem alternatives_of_says (h : Says tokens (Clause.otherMarks bodies)) (after : List Token) :
    alternatives last (tokens ++ after) = .ok (bodies, after) := by
  induction bodies generalizing tokens with
  | nil =>
      obtain ⟨t, rest, rfl, ht, hrest⟩ := says_cons_iff.mp h
      have hnil : rest = [] := List.map_eq_nil_iff.mp hrest
      subst hnil
      have hsign := isSign_iff.mpr ht
      cases after with
      | nil => simp [alternatives, hsign]
      | cons u after => simp [alternatives, hsign]
  | cons b bodies ih =>
      obtain ⟨t, rest, rfl, ht, hrest⟩ := says_cons_iff.mp h
      obtain ⟨u, rest, rfl, hu, hrest⟩ := says_cons_iff.mp hrest
      have hbar := isSign_iff.mpr ht
      have hsemi : ¬ t.isSign ";" = true := by
        rw [isSign_iff, ht]
        decide
      simp [alternatives, hsemi, hbar, body?_eq_some_iff.mpr hu, ih hrest]

/-! ## Rules -/

/-- The head and the alternatives of a rule, wherever it stands. -/
def Rule.parts (r : Rule) : String × List RuleBody := (r.head, r.bodies)

/-- The head and the alternatives of a clause. -/
def Clause.parts (c : Clause) : String × List RuleBody := (c.head, c.bodies)

/-- The rule that was read is the one the tokens say. -/
theorem rule_says {r : Rule} (h : rule last tokens = .ok (r, after)) :
    ∃ (read : List Token) (c : Clause), tokens = read ++ after ∧ Says read c.marks ∧
      r.parts = c.parts := by
  unfold rule at h
  split at h
  · next head arrow first rest =>
    split at h
    · cases h
    next hhead =>
    split at h
    · cases h
    next harrow =>
    split at h
    · cases h
    next b hb =>
    split at h
    · cases h
    next bodies after' hrest =>
    cases h
    obtain ⟨read, rfl, hread⟩ := alternatives_says hrest
    refine ⟨head :: arrow :: first :: read, ⟨head.text, b, bodies⟩, rfl, ?_, rfl⟩
    have hb := body?_eq_some_iff.mp hb
    have harrow := kind_eq_arrow_iff.mp (Classical.not_not.mp harrow)
    have hhead := kind_eq_ident_iff.mp (Classical.not_not.mp hhead)
    exact ((hread.cons hb).cons harrow).cons hhead
  · split at h
    · cases h
    split at h <;> cases h
  · split at h <;> cases h
  · cases h

/-- Tokens that say a rule are read as this rule. -/
theorem rule_of_says (last : Position) {c : Clause} (h : Says tokens c.marks) (after : List Token) :
    ∃ r, rule last (tokens ++ after) = .ok (r, after) ∧ r.parts = c.parts := by
  obtain ⟨head, rest, rfl, hhead, hrest⟩ := says_cons_iff.mp h
  obtain ⟨arrow, rest, rfl, harrow, hrest⟩ := says_cons_iff.mp hrest
  obtain ⟨first, rest, rfl, hfirst, hrest⟩ := says_cons_iff.mp hrest
  obtain ⟨hkind, htext⟩ := kind_of_mark_ident hhead
  refine ⟨⟨head.place, head.text, c.first :: c.others⟩, ?_, by rw [Rule.parts, htext]; rfl⟩
  simp [rule, hkind, kind_eq_arrow_iff.mpr harrow, body?_eq_some_iff.mpr hfirst,
    alternatives_of_says hrest]

/-- All rules are the first one and the others. -/
theorem rules_cons_eq_ok_iff {t : Token} {rs : List Rule} :
    rules last (t :: tokens) = .ok rs ↔
      ∃ r after rs', rule last (t :: tokens) = .ok (r, after) ∧ rules last after = .ok rs' ∧
        rs = r :: rs' := by
  rw [rules]
  split
  · next f hf => simp [hf]
  · next r after hr =>
    constructor
    · intro h
      split at h
      · cases h
      · next rs' hrs =>
        cases h
        exact ⟨r, after, rs', hr, hrs, rfl⟩
    · rintro ⟨r', after', rs', hr', hrs, rfl⟩
      rw [hr] at hr'
      cases hr'
      rw [hrs]

/-- The rules that were read are those the tokens say. -/
theorem rules_says {rs : List Rule} (h : rules last tokens = .ok rs) :
    ∃ clauses : List Clause, Says tokens (clauses.flatMap Clause.marks) ∧
      rs.map Rule.parts = clauses.map Clause.parts := by
  induction hlen : tokens.length using Nat.strongRecOn generalizing tokens rs with
  | ind len ih =>
      subst hlen
      cases tokens with
      | nil =>
          rw [rules] at h
          cases h
          exact ⟨[], says_nil, rfl⟩
      | cons t tokens =>
          obtain ⟨r, after, rs', hr, hrs, rfl⟩ := rules_cons_eq_ok_iff.mp h
          obtain ⟨clauses, hsays, hparts⟩ := ih _ (rule_length_lt hr) hrs rfl
          obtain ⟨read, c, heq, hread, hc⟩ := rule_says hr
          rw [heq]
          exact ⟨c :: clauses, hread.append hsays, by rw [List.map_cons, List.map_cons, hc, hparts]⟩

/-- Tokens that say rules are read as these rules. -/
theorem rules_of_says (last : Position) {clauses : List Clause}
    (h : Says tokens (clauses.flatMap Clause.marks)) :
    ∃ rs, rules last tokens = .ok rs ∧ rs.map Rule.parts = clauses.map Clause.parts := by
  induction clauses generalizing tokens with
  | nil =>
      have hnil : tokens = [] := List.map_eq_nil_iff.mp h
      subst hnil
      exact ⟨[], by rw [rules], rfl⟩
  | cons c clauses ih =>
      obtain ⟨read, after, rfl, hread, hafter⟩ := says_append_iff.mp h
      obtain ⟨r, hr, hparts⟩ := rule_of_says last hread after
      obtain ⟨rs, hrs, hmap⟩ := ih hafter
      refine ⟨r :: rs, ?_, by rw [List.map_cons, List.map_cons, hparts, hmap]⟩
      obtain ⟨t, read, rfl, _, _⟩ := says_cons_iff.mp hread
      exact rules_cons_eq_ok_iff.mpr ⟨r, after, rs, hr, hrs, rfl⟩

/-! ## The declaration -/

/-- A declaration opens with the word `terminals` and a colon. -/
theorem opens_declaration_iff {word colon : Token} :
    (word.kind = .ident && word.text = "terminals" && colon.isSign ":") = true ↔
      word.lexeme.mark? = some (.ident "terminals") ∧ colon.lexeme.mark? = some (.punct ":") := by
  rw [Bool.and_eq_true, Bool.and_eq_true, decide_eq_true_eq, decide_eq_true_eq, isSign_iff]
  refine and_congr_left fun _ => ⟨fun h => ?_, fun h => kind_of_mark_ident h⟩
  rw [kind_eq_ident_iff.mp h.1, h.2]

/-- The identifier of a declaration, if there is one, and what follows it. -/
theorem declaredSymbols_says (tokens : List Token) :
    ∃ (read : List Token) (symbols : Option String), tokens = read ++ (declaredSymbols tokens).2 ∧
      Says read (symbols.toList.map Mark.ident) ∧ (declaredSymbols tokens).1 = symbols.getD "" := by
  unfold declaredSymbols
  split
  · next t rest =>
    by_cases ht : t.kind = .ident
    · rw [if_pos ht]
      exact ⟨[t], some t.text, rfl, says_nil.cons (kind_eq_ident_iff.mp ht), rfl⟩
    · rw [if_neg ht]
      exact ⟨[], none, rfl, says_nil, rfl⟩
  · exact ⟨[], none, rfl, says_nil, rfl⟩

/-- The declaration that was read is the one the tokens say. -/
theorem declaration_says {symbols : Option String}
    (h : declaration last tokens = .ok (symbols, after)) :
    ∃ (read : List Token) (declared : Option (Option String)), tokens = read ++ after ∧
      Says read (declarationMarks declared) ∧ symbols = declared.map (·.getD "") := by
  have hnone : (none, tokens) = (symbols, after) → ∃ (read : List Token)
      (declared : Option (Option String)), tokens = read ++ after ∧
      Says read (declarationMarks declared) ∧ symbols = declared.map (·.getD "") := by
    intro heq
    cases heq
    exact ⟨[], none, rfl, says_nil, rfl⟩
  unfold declaration at h
  split at h
  · next word colon rest =>
    split at h
    · next hopen =>
      obtain ⟨hword, hcolon⟩ := opens_declaration_iff.mp hopen
      obtain ⟨read, symbols', hrest, hread, hsym⟩ := declaredSymbols_says rest
      generalize declaredSymbols rest = found at h hrest hsym
      obtain ⟨text, rest'⟩ := found
      dsimp only at h hrest hsym
      split at h
      · next t ts =>
        split at h
        · next ht =>
          cases h
          refine ⟨word :: colon :: (read ++ [t]), some symbols', by simp [hrest], ?_, by simp [hsym]⟩
          have hend : Says [t] [.punct ";"] := says_nil.cons (isSign_iff.mp ht)
          exact ((hread.append hend).cons hcolon).cons hword
        · cases h
      · cases h
    · exact hnone (Except.ok.inj h)
  · exact hnone (Except.ok.inj h)

/-- Tokens that say a declaration and rules after it are read so. The first rule of a file without a
    declaration may have the head `terminals`; an arrow follows it. -/
theorem declaration_of_says (last : Position) {declared : Option (Option String)}
    (h : Says tokens (declarationMarks declared)) {clauses : List Clause}
    (hafter : Says after (clauses.flatMap Clause.marks)) :
    declaration last (tokens ++ after) = .ok (declared.map (·.getD ""), after) := by
  cases declared with
  | none =>
      have hnil : tokens = [] := List.map_eq_nil_iff.mp h
      subst hnil
      cases clauses with
      | nil =>
          have hnil : after = [] := List.map_eq_nil_iff.mp hafter
          subst hnil
          rfl
      | cons c clauses =>
          obtain ⟨head, rest, rfl, _, hrest⟩ := says_cons_iff.mp hafter
          obtain ⟨arrow, rest, rfl, harrow, _⟩ := says_cons_iff.mp hrest
          have hclosed : ¬ (head.kind = .ident && head.text = "terminals" && arrow.isSign ":") = true := by
            rw [opens_declaration_iff, harrow]
            simp
          rw [List.nil_append, declaration, if_neg hclosed]
          rfl
  | some symbols =>
      obtain ⟨word, rest, rfl, hword, hrest⟩ := says_cons_iff.mp h
      obtain ⟨colon, rest, rfl, hcolon, hrest⟩ := says_cons_iff.mp hrest
      have hopen := opens_declaration_iff.mpr ⟨hword, hcolon⟩
      cases symbols with
      | none =>
          obtain ⟨semi, rest, rfl, hsemi, hrest⟩ := says_cons_iff.mp hrest
          have hnil : rest = [] := List.map_eq_nil_iff.mp hrest
          subst hnil
          have hkind : ¬ semi.kind = .ident := by
            rw [kind_eq_ident_iff, hsemi]
            simp
          simp [declaration, hopen, declaredSymbols, hkind, isSign_iff.mpr hsemi]
      | some text =>
          obtain ⟨name, rest, rfl, hname, hrest⟩ := says_cons_iff.mp hrest
          obtain ⟨semi, rest, rfl, hsemi, hrest⟩ := says_cons_iff.mp hrest
          have hnil : rest = [] := List.map_eq_nil_iff.mp hrest
          subst hnil
          obtain ⟨hkind, htext⟩ := kind_of_mark_ident hname
          simp [declaration, hopen, declaredSymbols, hkind, htext, isSign_iff.mpr hsemi]

/-! ## Files -/

/-- What a file says, wherever its parts stand. -/
def File.Says (f : File) (declared : Option (Option String)) (clauses : List Clause) : Prop :=
  f.declared = declared.map (·.getD "") ∧ f.rules.map Rule.parts = clauses.map Clause.parts

/-- A file of given tokens is a declaration and rules. -/
theorem ofTokens_eq_ok {f : File} (h : File.ofTokens tokens last = .ok f) :
    ∃ after, declaration last tokens = .ok (f.declared, after) ∧ rules last after = .ok f.rules := by
  unfold File.ofTokens at h
  cases hdecl : declaration last tokens with
  | error e =>
      rw [hdecl] at h
      cases h
  | ok found =>
      obtain ⟨symbols, after⟩ := found
      rw [hdecl] at h
      dsimp only at h
      cases hrules : rules last after with
      | error e =>
          rw [hrules] at h
          cases h
      | ok rs =>
          rw [hrules] at h
          cases h
          exact ⟨after, rfl, hrules⟩

/-- **A file that is read has the form**, and its parts are what the marks say. -/
theorem exists_form_of_read {filename : String} {text : List Glyph} {f : File}
    (h : File.read filename text = .ok f) :
    ∃ lexemes declared clauses, Splits text lexemes ∧
      lexemes.filterMap Lexeme.mark? = fileMarks declared clauses ∧ f.Says declared clauses := by
  unfold File.read at h
  split at h
  · cases h
  next tokens last htokens =>
  obtain ⟨after, hdecl, hrules⟩ := ofTokens_eq_ok h
  obtain ⟨read, declared, hread, hsays, hsym⟩ := declaration_says hdecl
  obtain ⟨clauses, hclauses, hparts⟩ := rules_says hrules
  refine ⟨tokens.map Token.lexeme, declared, clauses, splits_of_tokenize htokens, ?_, hsym, hparts⟩
  apply (says_significant tokens).unique
  rw [hread]
  exact hsays.append hclauses

/-- **A file of the form is read**, and its parts are what the marks say. -/
theorem exists_read_of_form (filename : String) {text : List Glyph} {lexemes : List Lexeme}
    {declared : Option (Option String)} {clauses : List Clause} (hsplit : Splits text lexemes)
    (hmarks : lexemes.filterMap Lexeme.mark? = fileMarks declared clauses) :
    ∃ f, File.read filename text = .ok f ∧ f.Says declared clauses := by
  obtain ⟨tokens, last, htokens, rfl⟩ := hsplit.exists_tokenize (.start filename)
  have hsays := says_significant tokens
  rw [hmarks] at hsays
  obtain ⟨read, after, heq, hread, hafter⟩ := says_append_iff.mp hsays
  obtain ⟨rs, hrules, hparts⟩ := rules_of_says last hafter
  unfold File.read
  rw [htokens]
  dsimp only
  unfold File.ofTokens
  rw [heq, declaration_of_says last hread hafter]
  dsimp only
  rw [hrules]
  exact ⟨_, rfl, rfl, hparts⟩

end Native
end LetterGrammar
