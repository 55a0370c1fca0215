/-
  The grammar leaves one pair for each lexeme of the scan, and one for the end of the text.

  Names do not matter to what a grammar reads (`Grammar.map_snd_read`), so what is known of the
  patterns says which texts have pairs at all. Where the scan finds a lexeme the rule of single
  tokens leaves the pair of that lexeme (`Grammar.read_token`), and by induction along the scan the
  repetition leaves the pairs of the row (`Grammar.readAll_token`). So tokens made of the pairs of a
  text (`Token.ofGrammar`) are the tokens made of its lexemes (`Token.ofGrammar_eq`).
-/
import InfixArithmetic.Lexeme.Grammar
import InfixArithmetic.Proofs.LexemePattern
import InfixArithmetic.Tokenization

namespace InfixArithmetic

namespace Grammar

/-! ## Names do not matter to what is read -/

theorem readAll_of_none {read : List Char → Option (List Pair × List Char)} {cs : List Char}
    (h : read cs = none) : readAll read cs = ([], cs) := by
  rw [readAll, h]

theorem readAll_of_some {read : List Char → Option (List Pair × List Char)} {cs rest : List Char}
    {pairs : List Pair} (h : read cs = some (pairs, rest)) (hlt : rest.length < cs.length) :
    readAll read cs = (pairs ++ (readAll read rest).1, (readAll read rest).2) := by
  rw [readAll, h]
  exact if_pos hlt

theorem readAll_snd {read : List Char → Option (List Pair × List Char)}
    {readText : List Char → Option (List Char)}
    (h : ∀ cs, (read cs).map Prod.snd = readText cs) (cs : List Char) :
    (readAll read cs).2 = Pattern.readAll readText cs := by
  induction cs using Pattern.readAll.induct readText with
  | case1 cs hnone =>
    rw [← h, Option.map_eq_none_iff] at hnone
    rw [readAll_of_none hnone, Pattern.readAll_of_none (by rw [← h, hnone]; rfl)]
  | case2 cs rest hsome hlt ih =>
    rw [Pattern.readAll_of_some hsome hlt, ← ih]
    rw [← h, Option.map_eq_some_iff] at hsome
    obtain ⟨⟨pairs, rest⟩, hread, rfl⟩ := hsome
    rw [readAll_of_some hread hlt]
  | case3 cs rest hsome hlt =>
    rw [Pattern.readAll, hsome]
    rw [← h, Option.map_eq_some_iff] at hsome
    obtain ⟨⟨pairs, rest⟩, hread, rfl⟩ := hsome
    rw [readAll, hread]
    simp only [hlt, if_false]

/-- A reading by a grammar is one by its pattern. -/
theorem map_snd_read (g : Grammar) (cs : List Char) :
    (g.read cs).map Prod.snd = g.pattern.read cs := by
  induction g generalizing cs with
  | plain p =>
    rw [read, Option.map_map]
    exact Option.map_id'
  | named rule body ih =>
    rw [read, Option.map_map]
    exact ih cs
  | seq first second ihfirst ihsecond =>
    rw [read, pattern, Pattern.read, ← ihfirst]
    cases first.read cs with
    | none => rfl
    | some result =>
      show ((second.read result.2).map _).map Prod.snd = second.pattern.read result.2
      rw [← ihsecond, Option.map_map]
      rfl
  | choice first second ihfirst ihsecond =>
    rw [read, pattern, Pattern.read, ← ihfirst, ← ihsecond]
    cases first.read cs <;> rfl
  | star body ih =>
    rw [read, pattern, Pattern.read, Option.map_some, readAll_snd ih]

theorem pattern_tokens : tokens.pattern = Pattern.tokens := rfl

/-! ## The pairs of a text -/

open Lexeme (number? next? scanFrom scan)

theorem take_of_append_eq {text rest cs : List Char} (h : text ++ rest = cs) :
    cs.take (cs.length - rest.length) = text := by
  rw [← h, List.length_append, Nat.add_sub_cancel, List.take_left]

theorem read_leaf {rule : Rule} {p : Pattern} {text rest cs : List Char}
    (h : p.read cs = some rest) (htext : text ++ rest = cs) :
    (named rule (plain p)).read cs = some ([.node rule text []], rest) := by
  simp only [read, h, Option.map_some, take_of_append_eq htext]

/-- A number leaves the pair of its lexeme. -/
theorem read_number {cs rest : List Char} {l : Lexeme} (h : number? cs = some (l, rest)) :
    number.read cs = some ([l.pair], rest) := by
  obtain ⟨literal, rfl, -, -⟩ := Lexeme.isLiteral_of_number? h
  exact read_leaf (by rw [Pattern.read_number, h]; rfl) (Lexeme.text_append_of_number? h)

/-- An operator symbol is no number and leaves the pair of its lexeme. -/
theorem read_of_isOperatorSymbol {c : Char} (h : Lexeme.isOperatorSymbol c) (cs : List Char) :
    number.read (c :: cs) = none ∧
      operator.read (c :: cs) = some ([(Lexeme.operator c).pair], cs) := by
  rcases Lexeme.isOperatorSymbol_iff.mp h with rfl | rfl | rfl | rfl <;>
    exact ⟨rfl, read_leaf rfl rfl⟩

theorem read_openParen (cs : List Char) :
    openParen.read ('(' :: cs) = some ([Lexeme.openParen.pair], cs) :=
  read_leaf rfl rfl

theorem read_closeParen (cs : List Char) :
    closeParen.read (')' :: cs) = some ([Lexeme.closeParen.pair], cs) :=
  read_leaf rfl rfl

/-- A token leaves the pair of its lexeme. -/
theorem read_token {cs rest : List Char} {l : Lexeme} (h : next? cs = some (l, rest)) :
    token.read cs = some ([l.pair], rest) := by
  show (number.read cs).or
    ((operator.read cs).or ((openParen.read cs).or (closeParen.read cs))) = _
  unfold next? at h
  split at h
  · cases h
  · cases h
    rw [read_openParen]
    rfl
  · cases h
    rw [read_closeParen]
    rfl
  · rename_i c cs hopen hclose
    by_cases hop : Lexeme.isOperatorSymbol c
    · rw [if_pos hop] at h
      cases h
      obtain ⟨hnumber, hoperator⟩ := read_of_isOperatorSymbol hop rest
      rw [hnumber, hoperator]
      rfl
    · rw [if_neg hop] at h
      rw [read_number h]
      rfl

/-- The repetition of tokens leaves the pairs of the row that is scanned. -/
theorem readAll_token {position : Nat} {cs : List Char} {ls : List Lexeme}
    (h : scanFrom position cs = .ok ls) : readAll token.read cs = (ls.map Lexeme.pair, []) := by
  induction position, cs using Lexeme.scanFrom.induct generalizing ls with
  | case1 position =>
    rw [Lexeme.scanFrom_nil] at h
    cases h
    exact readAll_of_none rfl
  | case2 position c cs hnone =>
    rw [Lexeme.scanFrom_eq_error (List.cons_ne_nil c cs) hnone] at h
    cases h
  | case3 position c cs l rest hnext ih =>
    rw [Lexeme.scanFrom_eq_bind hnext] at h
    obtain ⟨ls, hls, hcons⟩ := bind_eq_ok_iff.mp h
    cases hcons
    rw [readAll_of_some (read_token hnext) (Lexeme.length_lt_of_next? hnext), ih hls]
    rfl

/-- A text that is scanned leaves one pair, and in it those of its lexemes and one for its end. -/
theorem read_tokens {text : List Char} {ls : List Lexeme} (h : scan text = .ok ls) :
    tokens.read text =
      some ([.node .tokens text (ls.map Lexeme.pair ++ [.node .endOfText [] []])], []) := by
  unfold scan at h
  split at h
  · cases h
  · rename_i hne
    obtain ⟨c, cs, rfl⟩ := List.exists_cons_of_ne_nil hne
    cases hnext : next? (c :: cs) with
    | none =>
      rw [Lexeme.scanFrom_eq_error hne hnext] at h
      cases h
    | some result =>
      obtain ⟨l, rest⟩ := result
      rw [Lexeme.scanFrom_eq_bind hnext] at h
      obtain ⟨ls, hls, hcons⟩ := bind_eq_ok_iff.mp h
      cases hcons
      simp [tokens, read, read_token hnext, readAll_token hls, Pattern.read]

theorem le_length_of_scan_error {text : List Char} {position : Nat}
    (h : scan text = .error position) : position ≤ text.length := by
  unfold scan at h
  split at h
  · cases h
    exact Nat.zero_le _
  · obtain ⟨hne, n, rfl, hdrop⟩ := Pattern.readAll_token_of_scanFrom_error h
    rw [hdrop, ne_eq, List.drop_eq_nil_iff] at hne
    omega

/-- A text that is not scanned is not read. -/
theorem read_tokens_of_error {text : List Char} {position : Nat}
    (h : scan text = .error position) : tokens.read text = none := by
  have hpattern : (tokens.read text).map Prod.snd = Pattern.tokens.read text := by
    rw [map_snd_read, pattern_tokens]
  cases hread : Pattern.tokens.read text with
  | none =>
    rw [hread] at hpattern
    exact Option.map_eq_none_iff.mp hpattern
  | some rest =>
    -- the end of the text is part of the rule, so nothing can be left
    have hall : Pattern.tokens.read text = some [] := by
      rw [Pattern.read_tokens] at hread ⊢
      split at hread
      · rename_i hboth
        exact if_pos hboth
      · cases hread
    obtain ⟨ls, hls⟩ := Pattern.read_tokens_eq_some_iff.mp hall
    rw [h] at hls
    cases hls

end Grammar

/-! ## Tokens of pairs -/

/-- Why pairs have no tokens: an error, or a rule that stands for no token. -/
inductive PairFault where
  | error (e : EvalError)
  | stray (rule : Rule)
  deriving DecidableEq, Repr

namespace Token

variable {α : Type} [Arithmetic α]

/-- The token of a pair, and none for the end of the text. -/
def ofPair? (atOperand : Bool) (pair : Pair) : Except PairFault (Option (Token α)) :=
  match pair.rule with
  | .number =>
    match Arithmetic.readLiteral? pair.text with
    | none => .error (.error (.invalidNumber (String.ofList pair.text)))
    | some value => .ok (some (.number value))
  | .operator =>
    match Operator.ofText? (String.ofList pair.text) with
    | none => .error (.error (.unknownOperator (String.ofList pair.text)))
    | some .sub => .ok (some (.operator (if atOperand then .neg else .sub)))
    | some op => .ok (some (.operator op))
  | .openParen => .ok (some .openParen)
  | .closeParen => .ok (some .closeParen)
  | .endOfText => .ok none
  | rule => .error (.stray rule)

/-- The tokens of a row of pairs; `operandDue` says whether an operand is due before the first. -/
def ofPairs (unaryMinus operandDue : Bool) : List Pair → Except PairFault (List (Token α))
  | [] => .ok []
  | pair :: pairs => do
    match ← ofPair? (unaryMinus && operandDue) pair with
    | none => ofPairs unaryMinus operandDue pairs
    | some token =>
      let tokens ← ofPairs unaryMinus token.expectsOperand pairs
      .ok (token :: tokens)

/-- The tokens of a stripped text by way of the pairs that the grammar leaves. If it does not read
the text, the repetition of tokens stops where the text is blamed. -/
def ofGrammar (unaryMinus : Bool) (stripped : List Char) : Except PairFault (List (Token α)) :=
  let noTokens : PairFault := .error (.tokenizationFailed 0 "no tokens found")
  match Grammar.tokens.read stripped with
  | none =>
    let left := Pattern.readAll Pattern.token.read stripped
    .error (.error (unreadable (stripped.length - left.length)))
  | some ([], _) => .error noTokens
  | some (root :: _, _) => do
    let tokens ← ofPairs unaryMinus true root.inner
    if tokens.isEmpty then .error noTokens else .ok tokens

theorem mapError_bind {ε ε' β γ : Type} (f : ε → ε') (x : Except ε β) (g : β → Except ε γ) :
    (x >>= g).mapError f = x.mapError f >>= fun b => (g b).mapError f := by
  cases x <;> rfl

/-- The pair of a lexeme becomes what the lexeme becomes. -/
theorem ofPair?_pair (atOperand : Bool) (l : Lexeme) :
    ofPair? atOperand l.pair =
      ((ofLexeme atOperand l : Except EvalError (Token α)).mapError .error).map some := by
  cases l with
  | openParen => rfl
  | closeParen => rfl
  | number literal =>
    simp only [ofPair?, ofLexeme, Lexeme.pair, Lexeme.rule, Lexeme.text, Pair.rule, Pair.text]
    cases Arithmetic.readLiteral? (α := α) literal <;> rfl
  | operator symbol =>
    have htext : Operator.ofText? (String.ofList [symbol]) = Operator.ofSymbol? symbol := by
      rw [Operator.ofText?, String.toList_ofList]
    simp only [ofPair?, ofLexeme, operatorOfSymbol, Lexeme.pair, Lexeme.rule, Lexeme.text,
      Pair.rule, Pair.text, htext]
    cases Operator.ofSymbol? symbol with
    | none => rfl
    | some op => cases op <;> rfl

/-- The pairs of a row become what the row becomes. -/
theorem ofPairs_map_pair (unaryMinus operandDue : Bool) (ls : List Lexeme) :
    ofPairs unaryMinus operandDue (ls.map Lexeme.pair ++ [.node .endOfText [] []]) =
      (ofLexemes unaryMinus operandDue ls : Except EvalError (List (Token α))).mapError .error := by
  induction ls generalizing operandDue with
  | nil => rfl
  | cons l ls ih =>
    rw [List.map_cons, List.cons_append, ofPairs, ofPair?_pair, ofLexemes]
    cases ofLexeme (α := α) (unaryMinus && operandDue) l with
    | error e => rfl
    | ok token =>
      show (ofPairs unaryMinus token.expectsOperand _ >>= fun tokens => .ok (token :: tokens)) =
        (ofLexemes unaryMinus token.expectsOperand ls >>= fun tokens =>
          .ok (token :: tokens)).mapError .error
      rw [ih, mapError_bind]
      rfl

/-- The pairs that the grammar leaves of a text have the tokens of the text, or fail as it does; none
of them has a rule that stands for no token. -/
theorem ofGrammar_eq (unaryMinus : Bool) (stripped : List Char) :
    ofGrammar unaryMinus stripped =
      (ofStripped unaryMinus stripped : Except EvalError (List (Token α))).mapError .error := by
  rw [ofGrammar, ofStripped]
  cases hscan : Lexeme.scan stripped with
  | error position =>
    have hle := Grammar.le_length_of_scan_error hscan
    rw [Grammar.read_tokens_of_error hscan]
    dsimp only
    rw [Pattern.readAll_token_of_scan_error hscan, List.length_drop, Nat.sub_sub_self hle]
    rfl
  | ok ls =>
    rw [Grammar.read_tokens hscan]
    show (ofPairs unaryMinus true (ls.map Lexeme.pair ++ [.node .endOfText [] []]) >>=
      fun tokens => _) = _
    rw [ofPairs_map_pair]
    dsimp only
    rw [mapError_bind]
    congr 1
    funext tokens
    split <;> rfl

end Token

end InfixArithmetic
