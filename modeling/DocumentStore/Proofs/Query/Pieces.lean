import DocumentStore.Proofs.Query.Layout
import DocumentStore.Proofs.Query.Quoting
import Mathlib.Data.List.Basic

/-! Query text in pieces: quoted strings, and what is written as it stands between them.

The text of a search is put together from pieces (`Query.Searches.allChars_pieces`). The quoted ones are
the partition and then the strings and dates that its leaves compare with, in their order
(`Query.strings_pieces`). The plain ones hold names, symbols, numbers and the like, so it is only names
that could bring a quote into them (`Query.unquoted_pieces`). -/
namespace DocumentStore

/-- A stretch of query text. -/
inductive Piece where
  | plain (text : String)
  | quoted (s : String)
deriving DecidableEq

namespace Piece

/-- The characters of a piece. -/
def chars : Piece → List Char
  | plain text => text.toList
  | quoted s => (Literal.quote s).toList

def string? : Piece → Option String
  | plain _ => none
  | quoted s => some s

/-- The characters of pieces in a row. -/
def allChars (ps : List Piece) : List Char := ps.flatMap chars

/-- The strings that are quoted among pieces. -/
def strings (ps : List Piece) : List String := ps.filterMap string?

@[simp] theorem allChars_nil : allChars [] = [] := rfl

@[simp] theorem allChars_cons (p : Piece) (ps : List Piece) :
    allChars (p :: ps) = p.chars ++ allChars ps := List.flatMap_cons

@[simp] theorem allChars_append (ps ps' : List Piece) :
    allChars (ps ++ ps') = allChars ps ++ allChars ps' := List.flatMap_append

@[simp] theorem strings_nil : strings [] = [] := rfl

@[simp] theorem strings_plain (text : String) (ps : List Piece) :
    strings (plain text :: ps) = strings ps := rfl

@[simp] theorem strings_quoted (s : String) (ps : List Piece) :
    strings (quoted s :: ps) = s :: strings ps := rfl

@[simp] theorem strings_append (ps ps' : List Piece) :
    strings (ps ++ ps') = strings ps ++ strings ps' := List.filterMap_append

/-- What is written as it stands has no quote. -/
def Unquoted : Piece → Prop
  | plain text => '\'' ∉ text.toList
  | quoted _ => True

instance : DecidablePred Unquoted
  | plain text => inferInstanceAs (Decidable ('\'' ∉ text.toList))
  | quoted _ => inferInstanceAs (Decidable True)

end Piece

/-! ### Numbers are written without quotes -/

/-- A character of numbers and keywords. -/
def Text.IsWordChar (c : Char) : Prop := c.isAlphanum = true ∨ c = '-' ∨ c = '.'

instance : DecidablePred Text.IsWordChar := fun _ => inferInstanceAs (Decidable (_ ∨ _ ∨ _))

theorem Text.isWordChar_of_isDigit {c : Char} (h : c.isDigit = true) : IsWordChar c :=
  .inl (by simp [Char.isAlphanum, h])

theorem Decimal.isWordChar_of_mem_positional {d : Decimal} {c : Char} (h : c ∈ d.positional) :
    Text.IsWordChar c := by
  have hdigits : ∀ c ∈ d.digits, Text.IsWordChar c := fun c hc =>
    Text.isWordChar_of_isDigit (Nat.isDigit_of_mem_toDigits (by decide) (by decide) hc)
  have hzeros (n : Nat) : ∀ c ∈ List.replicate n '0', Text.IsWordChar c := fun c hc => by
    rw [List.eq_of_mem_replicate hc]
    decide
  unfold positional at h
  simp only at h
  split at h
  · exact (List.mem_append.1 h).elim (hdigits c) (hzeros _ c)
  · split at h
    · rw [List.mem_append, List.mem_cons] at h
      obtain hc | rfl | hc := h
      · exact hdigits c (List.mem_of_mem_take hc)
      · decide
      · exact hdigits c (List.mem_of_mem_drop hc)
    · rw [List.mem_append, List.mem_cons, List.mem_cons] at h
      obtain (rfl | rfl | hc) | hc := h
      · decide
      · decide
      · exact hzeros _ c hc
      · exact hdigits c hc

theorem Decimal.isWordChar_of_mem_plain {x : Float} {c : Char} (h : c ∈ (plain x).toList) :
    Text.IsWordChar c := by
  have hsigned (cs : List Char) (hcs : ∀ c ∈ cs, Text.IsWordChar c) (h : c ∈ (signed x cs).toList) :
      Text.IsWordChar c := by
    rw [signed, String.toList_ofList] at h
    split at h
    · obtain rfl | hc := List.mem_cons.1 h
      · decide
      · exact hcs c hc
    · exact hcs c h
  have hletters {cs : List Char} (hcs : cs.all (fun c => decide (Text.IsWordChar c)) = true) :
      ∀ c ∈ cs, Text.IsWordChar c := by simpa using hcs
  unfold plain at h
  split at h
  · exact hletters (by decide) c h
  · split at h
    · exact hsigned _ (hletters (by decide)) h
    · exact hsigned _ (fun _ => isWordChar_of_mem_positional) h

theorem Decimal.quote_not_mem_plain (x : Float) : '\'' ∉ (plain x).toList :=
  fun h => absurd (isWordChar_of_mem_plain h) (by decide)

theorem isDigit_of_mem_toString_nat {n : Nat} {c : Char} (h : c ∈ (toString n).toList) :
    c.isDigit = true := by
  rw [Nat.toString_eq_repr, Nat.repr, String.toList_ofList] at h
  exact Nat.isDigit_of_mem_toDigits (by decide) (by decide) h

theorem isDigit_of_mem_toString_int {n : Int} {c : Char} (h : c ∈ (toString n).toList) :
    c = '-' ∨ c.isDigit = true := by
  rw [Int.toString_eq_repr, Int.repr_eq_if] at h
  split at h
  · exact .inr (isDigit_of_mem_toString_nat h)
  · rw [String.toList_append, List.mem_append] at h
    exact h.imp List.mem_singleton.1 isDigit_of_mem_toString_nat

theorem quote_not_mem_toString_nat (n : Nat) : '\'' ∉ (toString n).toList :=
  fun h => absurd (isDigit_of_mem_toString_nat h) (by decide)

theorem quote_not_mem_toString_int (n : Int) : '\'' ∉ (toString n).toList :=
  fun h => absurd (isDigit_of_mem_toString_int h) (by decide)

/-! ### Rows with a separator -/

namespace Piece

/-- Rows of pieces with a separator between any two. -/
def separated (separator : String) : List (List Piece) → List Piece
  | [] => []
  | [row] => row
  | row :: rest => row ++ plain separator :: separated separator rest

theorem separated_cons_cons (separator : String) (row row' : List Piece) (rest : List (List Piece)) :
    separated separator (row :: row' :: rest) =
      row ++ plain separator :: separated separator (row' :: rest) := rfl

/-- Rows that spell texts spell them with the separator in between. -/
theorem allChars_separated {α : Type} (separator : String) (row : α → List Piece) (text : α → String) :
    ∀ xs : List α, (∀ x ∈ xs, allChars (row x) = (text x).toList) →
      allChars (separated separator (xs.map row)) = (separator.intercalate (xs.map text)).toList
  | [], _ => by rw [List.map_nil, List.map_nil, String.intercalate_nil]; rfl
  | [x], h => by
    rw [List.map_singleton, List.map_singleton, String.intercalate_singleton]
    exact h x (List.mem_singleton_self x)
  | x :: y :: rest, h => by
    have ih := allChars_separated separator row text (y :: rest)
      fun z hz => h z (List.mem_cons_of_mem x hz)
    simp only [List.map_cons] at ih ⊢
    rw [separated_cons_cons, String.intercalate_cons_cons, allChars_append, allChars_cons, ih,
      h x (List.mem_cons_self ..)]
    simp only [chars, String.toList_append, List.append_assoc]

theorem strings_separated (separator : String) : ∀ rows : List (List Piece),
    strings (separated separator rows) = rows.flatMap strings
  | [] => rfl
  | [row] => (List.flatMap_singleton ..).symm
  | row :: row' :: rest => by
    rw [separated_cons_cons, strings_append, strings_plain, strings_separated separator (row' :: rest)]
    exact List.flatMap_cons.symm

theorem unquoted_separated {separator : String} (hsep : '\'' ∉ separator.toList) :
    ∀ {rows : List (List Piece)}, (∀ row ∈ rows, ∀ p ∈ row, p.Unquoted) →
      ∀ p ∈ separated separator rows, p.Unquoted
  | [], _ => nofun
  | [row], h => h row (List.mem_singleton_self row)
  | row :: row' :: rest, h => by
    intro p hp
    rw [separated_cons_cons, List.mem_append, List.mem_cons] at hp
    rcases hp with hp | rfl | hp
    · exact h row (List.mem_cons_self ..) p hp
    · exact hsep
    · exact unquoted_separated hsep (fun r hr => h r (List.mem_cons_of_mem row hr)) p hp

end Piece

/-! ### Literals -/

namespace Literal

/-- The piece of each scalar. -/
def scalarPieces : Term → List Piece
  | .null => [.plain "null"]
  | .string s => [.quoted s]
  | .integer n => [.plain (toString n)]
  | .double x => [.plain (Decimal.plain x)]
  | .boolean b => [.plain (Term.boolText b)]
  | .date t => [.quoted t.preciseText]
  | .strings ss => ss.map .quoted
  | .integers ns => ns.map fun n => .plain (toString n)
  | .doubles xs => xs.map fun x => .plain (Decimal.plain x)
  | .booleans bs => bs.map fun b => .plain (Term.boolText b)
  | .dates ts => ts.map fun t => .quoted t.preciseText

/-- The strings that are quoted in the literal of a term. -/
def strings : Term → List String
  | .string s => [s]
  | .strings ss => ss
  | .date t => [t.preciseText]
  | .dates ts => ts.map (·.preciseText)
  | _ => []

/-- The pieces of a term's literal. -/
def pieces (t : Term) : List Piece := Piece.separated ", " ((scalarPieces t).map fun p => [p])

theorem map_chars_scalarPieces (t : Term) :
    (scalarPieces t).map Piece.chars = (scalars t).map String.toList := by
  cases t <;> simp [scalarPieces, scalars, Piece.chars, Function.comp_def]

theorem allChars_pieces (t : Term) : Piece.allChars (pieces t) = (text t).toList := by
  have h := Piece.allChars_separated ", " (fun p => [p]) (fun p : Piece => String.ofList p.chars)
    (scalarPieces t) fun p _ => by simp
  have htexts : ((scalarPieces t).map fun p => String.ofList p.chars) = scalars t := by
    simpa [Function.comp_def] using congrArg (List.map String.ofList) (map_chars_scalarPieces t)
  rw [pieces, h, htexts, text]

theorem strings_pieces (t : Term) : Piece.strings (pieces t) = strings t := by
  have hscalars : Piece.strings (scalarPieces t) = strings t := by
    cases t <;> simp [scalarPieces, strings, Piece.strings, Piece.string?, List.filterMap_map,
      Function.comp_def]
  rw [pieces, Piece.strings_separated, List.flatMap_map, ← hscalars]
  generalize scalarPieces t = ps
  induction ps with
  | nil => rfl
  | cons p ps ih =>
    rw [List.flatMap_cons, ih]
    cases p <;> rfl

theorem unquoted_pieces (t : Term) : ∀ p ∈ pieces t, p.Unquoted := by
  have hbool (b : Bool) : '\'' ∉ (Term.boolText b).toList := by cases b <;> decide
  have hscalars : ∀ p ∈ scalarPieces t, p.Unquoted := by
    cases t with
    | integer n => exact List.forall_mem_singleton.2 (quote_not_mem_toString_int n)
    | integers ns => exact List.forall_mem_map.2 fun n _ => quote_not_mem_toString_int n
    | double x => exact List.forall_mem_singleton.2 (Decimal.quote_not_mem_plain x)
    | doubles xs => exact List.forall_mem_map.2 fun x _ => Decimal.quote_not_mem_plain x
    | boolean b => exact List.forall_mem_singleton.2 (hbool b)
    | booleans bs => exact List.forall_mem_map.2 fun b _ => hbool b
    | _ => simp [scalarPieces, Piece.Unquoted]
  refine Piece.unquoted_separated (by decide) fun row hrow p hp => ?_
  obtain ⟨p', hp', rfl⟩ := List.mem_map.1 hrow
  obtain rfl := List.mem_singleton.1 hp
  exact hscalars p hp'

end Literal

/-! ### Clauses -/

namespace Clause

/-- Induction over clauses: a join inherits from its parts. -/
@[elab_as_elim, induction_eliminator]
theorem induct {P : Clause → Prop}
    (comparison : ∀ path symbol operand, P (comparison path symbol operand))
    (join : ∀ op parts, (∀ c ∈ parts, P c) → P (join op parts)) : ∀ c, P c
  | .comparison path symbol operand => comparison path symbol operand
  | .join op parts => join op parts fun c _ => induct comparison join c

/-- The text of a separator between the parts of a join. -/
def separator (op : Connective) : String := " " ++ op.symbol.text ++ " "

mutual
/-- The pieces of a clause. -/
def pieces : Clause → List Piece
  | comparison path symbol operand =>
    .plain path :: .plain symbol.before :: (Literal.pieces operand ++ [.plain symbol.behind])
  | join op parts => .plain "(" :: (Piece.separated (separator op) (allPieces parts) ++ [.plain ")"])
def allPieces : List Clause → List (List Piece)
  | [] => []
  | c :: rest => c.pieces :: allPieces rest
end

theorem allPieces_eq_map (cs : List Clause) : allPieces cs = cs.map pieces := by
  induction cs with
  | nil => rfl
  | cons c rest ih => rw [allPieces, ih, List.map_cons]

theorem joined_eq_intercalate (separator : String) : ∀ cs : List Clause,
    joined separator cs = separator.intercalate (cs.map text)
  | [] => String.intercalate_nil.symm
  | [_] => String.intercalate_singleton.symm
  | c :: d :: rest => by
    rw [List.map_cons, List.map_cons, String.intercalate_cons_cons, ← List.map_cons,
      ← joined_eq_intercalate separator (d :: rest)]
    rfl

theorem allChars_pieces (clause : Clause) : Piece.allChars clause.pieces = clause.text.toList := by
  induction clause with
  | comparison path symbol operand =>
    rw [text_comparison]
    simp only [pieces, Piece.allChars_cons, Piece.allChars_append, Literal.allChars_pieces,
      Piece.chars, Piece.allChars_nil, String.toList_append, List.append_assoc, List.append_nil]
  | join op parts ih =>
    rw [text, joined_eq_intercalate, pieces, allPieces_eq_map]
    simp only [Piece.allChars_cons, Piece.allChars_append, Piece.chars, Piece.allChars_nil,
      String.toList_append, List.append_assoc, List.append_nil]
    rw [Piece.allChars_separated _ pieces text parts ih]
    rfl

theorem strings_pieces (clause : Clause) :
    Piece.strings clause.pieces = clause.comparisons.flatMap fun x => Literal.strings x.operand := by
  induction clause with
  | comparison path symbol operand => simp [pieces, comparisons, Literal.strings_pieces]
  | join op parts ih =>
    rw [pieces, comparisons, Piece.strings_plain, Piece.strings_append, Piece.strings_separated,
      allPieces_eq_map, allComparisons_eq_flatMap, List.flatMap_map, List.flatMap_assoc]
    simp only [Piece.strings_plain, Piece.strings_nil, List.append_nil]
    exact List.flatMap_congr ih

theorem unquoted_pieces {clause : Clause} (h : ∀ x ∈ clause.comparisons, '\'' ∉ x.path.toList) :
    ∀ p ∈ clause.pieces, p.Unquoted := by
  induction clause with
  | comparison path symbol operand =>
    have hsymbol : '\'' ∉ symbol.before.toList ∧ '\'' ∉ symbol.behind.toList := by
      cases symbol <;> decide
    intro p hp
    simp only [pieces, List.mem_cons, List.mem_append, List.not_mem_nil, or_false] at hp
    rcases hp with rfl | rfl | hp | rfl
    · exact h _ (List.mem_singleton_self _)
    · exact hsymbol.1
    · exact Literal.unquoted_pieces operand p hp
    · exact hsymbol.2
  | join op parts ih =>
    rw [comparisons, allComparisons_eq_flatMap] at h
    have hparts : ∀ row ∈ parts.map pieces, ∀ p ∈ row, p.Unquoted := by
      refine List.forall_mem_map.2 fun c hc => ih c hc fun x hx => h x ?_
      exact List.mem_flatMap.2 ⟨c, hc, hx⟩
    intro p hp
    rw [pieces, allPieces_eq_map, List.mem_cons, List.mem_append, List.mem_singleton] at hp
    rcases hp with rfl | hp | rfl
    · show '\'' ∉ "(".toList
      decide
    · exact Piece.unquoted_separated (by cases op <;> decide) hparts p hp
    · show '\'' ∉ ")".toList
      decide

end Clause

/-! ### Searches -/

namespace Query

/-- The pieces of a condition. -/
def conditionPieces : Option Clause → List Piece
  | some clause => .plain " AND " :: clause.pieces
  | none => []

/-- The pieces of the text of a search, which have the partition as the first string. -/
def pieces (s : Schema) (select partition : String) (criteria : Option Criteria)
    (clause : Option Clause) (q : Query) : List Piece :=
  .plain ("SELECT " ++ select ++ " FROM c WHERE c." ++ s.partitionKeyName ++ " = ") ::
    .quoted partition :: .plain (guardText criteria) ::
      (conditionPieces clause ++ [.plain (closingText q)])

variable {s : Schema} {partition select : String} {criteria : Option Criteria} {q : Query}
  {clause : Option Clause}

theorem Searches.allChars_pieces (h : Searches s partition criteria select q)
    (hclause : clauseOf? s.aliases criteria = .ok clause) :
    Piece.allChars (pieces s select partition criteria clause q) = q.text.toList := by
  obtain ⟨clause', hclause', htext, -⟩ := h.layout
  obtain rfl := Except.ok.inj (hclause.symm.trans hclause')
  rw [htext]
  cases clause with
  | none =>
    simp [pieces, conditionPieces, clauseText, opening, Piece.chars]
  | some clause =>
    simp [pieces, conditionPieces, clauseText, opening, Piece.chars, Clause.allChars_pieces]

/-- The strings that the leaves of criteria compare with, from left to right. -/
def operandStrings (a : Aliases) (criteria : Option Criteria) : List String :=
  ((leavesOf criteria).filterMap (Leaf.comparison? a)).flatMap fun x => Literal.strings x.operand

theorem strings_pieces (hclause : clauseOf? s.aliases criteria = .ok clause) :
    Piece.strings (pieces s select partition criteria clause q) =
      partition :: operandStrings s.aliases criteria := by
  rw [operandStrings, ← comparisonsOf_clauseOf? hclause]
  cases clause with
  | none => simp [pieces, conditionPieces, Criteria.comparisonsOf]
  | some clause => simp [pieces, conditionPieces, Criteria.comparisonsOf, Clause.strings_pieces]

/-- No name that stands in the text of a search has a quote. -/
structure NamesUnquoted (s : Schema) (select : String) (criteria : Option Criteria) (q : Query) :
    Prop where
  select : '\'' ∉ select.toList
  partitionKey : '\'' ∉ s.partitionKeyName.toList
  attributes : ∀ x ∈ (leavesOf criteria).filterMap (Leaf.comparison? s.aliases), '\'' ∉ x.path.toList
  sorting : ∀ sort, q.sorting = some sort → '\'' ∉ sort.field.toList

theorem quote_not_mem_closingText (h : ∀ sort, q.sorting = some sort → '\'' ∉ sort.field.toList) :
    '\'' ∉ (closingText q).toList := by
  have hwindow : '\'' ∉ (windowText q).toList := by
    unfold windowText
    split
    · simp only [String.toList_append, List.mem_append, not_or]
      exact ⟨⟨⟨by decide, quote_not_mem_toString_nat _⟩, by decide⟩, quote_not_mem_toString_nat _⟩
    · decide
  rw [closingText, String.toList_append, List.mem_append, not_or]
  refine ⟨?_, hwindow⟩
  cases hsort : q.sorting with
  | none => decide
  | some sort =>
    simp only [orderText, String.toList_append, List.mem_append, not_or]
    refine ⟨⟨by decide, h sort hsort⟩, ?_⟩
    cases sort.direction <;> decide

theorem unquoted_pieces (h : NamesUnquoted s select criteria q)
    (hclause : clauseOf? s.aliases criteria = .ok clause) :
    ∀ p ∈ pieces s select partition criteria clause q, p.Unquoted := by
  have hguard : '\'' ∉ (guardText criteria).toList := by
    unfold guardText
    split
    · split <;> decide
    · decide
  have hcondition : ∀ p ∈ conditionPieces clause, p.Unquoted := by
    have hpaths := h.attributes
    rw [← comparisonsOf_clauseOf? hclause] at hpaths
    cases clause with
    | none => exact nofun
    | some clause =>
      refine List.forall_mem_cons.2 ⟨?_, Clause.unquoted_pieces hpaths⟩
      show '\'' ∉ " AND ".toList
      decide
  intro p hp
  rw [pieces, List.mem_cons, List.mem_cons, List.mem_cons, List.mem_append, List.mem_singleton] at hp
  rcases hp with rfl | rfl | rfl | hp | rfl
  · simp only [Piece.Unquoted, String.toList_append, List.mem_append, not_or]
    exact ⟨⟨⟨⟨by decide, h.select⟩, by decide⟩, h.partitionKey⟩, by decide⟩
  · trivial
  · exact hguard
  · exact hcondition p hp
  · exact quote_not_mem_closingText h.sorting

end Query
end DocumentStore
