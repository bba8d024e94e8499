import DocumentStore.Proofs.Query.Pieces

/-! How query text is read.

A reader takes query text character by character, and literals whole. In the text of a search it reads
each literal as the string it was written for, and stops where the literal does, exactly if the string
has no backslash; and where names have no quote, all of the text is read as it was meant exactly if no
string in it has a backslash (`Searches.reads_back_iff`). With a backslash at its end the partition of
a search takes conditions into its literal, and puts the text of an operand outside of any. -/
namespace DocumentStore

/-- What a reader takes at once: a character outside of literals, or a literal. -/
inductive Token where
  | char (c : Char)
  | string (s : List Char)
deriving DecidableEq

/-- The tokens of query text, none where a literal does not end. -/
def tokens? : List Char → Option (List Token)
  | [] => some []
  | c :: rest =>
    if c = '\'' then
      match h : Literal.unquote? rest with
      | some (s, behind) =>
        have := Literal.length_lt_of_unquote? h
        (tokens? behind).map (.string s :: ·)
      | none => none
    else (tokens? rest).map (.char c :: ·)
termination_by cs => cs.length

/-- What a piece is meant to be read as. -/
def Piece.tokens : Piece → List Token
  | plain text => text.toList.map .char
  | quoted s => [.string s.toList]

theorem tokens?_unquoted {cs : List Char} (h : '\'' ∉ cs) (rest : List Char) :
    tokens? (cs ++ rest) = (tokens? rest).map (cs.map .char ++ ·) := by
  induction cs with
  | nil => simp
  | cons c cs ih =>
    obtain ⟨hc, hcs⟩ := not_or.1 fun hm => h (List.mem_cons.2 hm)
    rw [List.cons_append, tokens?, if_neg (Ne.symm hc), ih hcs, Option.map_map]
    rfl

theorem tokens?_quote (cs : List Char) :
    tokens? ('\'' :: cs) =
      (Literal.unquote? cs).bind fun p => (tokens? p.2).map (.string p.1 :: ·) := by
  rw [tokens?, if_pos rfl]
  split
  · next s behind h => simp only [h, Option.bind_some]
  · next h => simp only [h, Option.bind_none]

/-- Pieces read back all together exactly if each of their strings does. -/
theorem tokens?_allChars_iff {ps : List Piece} (h : ∀ p ∈ ps, p.Unquoted) :
    tokens? (Piece.allChars ps) = some (ps.flatMap Piece.tokens) ↔
      ∀ t ∈ Piece.strings ps, '\\' ∉ t.toList := by
  induction ps with
  | nil => simp [tokens?]
  | cons p ps ih =>
    obtain ⟨hp, hps⟩ := List.forall_mem_cons.1 h
    rw [Piece.allChars_cons, List.flatMap_cons]
    cases p with
    | plain text =>
      rw [Piece.strings_plain, ← ih hps, Piece.chars, tokens?_unquoted hp, Piece.tokens]
      constructor
      · intro hread
        obtain ⟨ts, hts, heq⟩ := Option.map_eq_some_iff.1 hread
        rw [hts, List.append_cancel_left heq]
      · intro hread
        rw [hread]
        rfl
    | quoted s =>
      rw [Piece.strings_quoted, List.forall_mem_cons, ← ih hps, Piece.chars, Literal.toList_quote,
        List.cons_append, List.append_assoc, List.singleton_append, tokens?_quote, Piece.tokens]
      constructor
      · intro hread
        obtain ⟨⟨t, behind⟩, hliteral, hbehind⟩ := Option.bind_eq_some_iff.1 hread
        obtain ⟨ts, hts, heq⟩ := Option.map_eq_some_iff.1 hbehind
        obtain ⟨hstring, rfl⟩ := List.cons.inj heq
        cases hstring
        have hs := Literal.not_mem_of_unquote? hliteral
        rw [Literal.unquote?_escaped hs] at hliteral
        cases hliteral
        exact ⟨hs, hts⟩
      · intro h
        obtain ⟨hs, hread⟩ := h
        rw [Literal.unquote?_escaped hs, Option.bind_some, hread]
        rfl

/-- The strings of a term, dates aside. -/
def Term.texts : Term → List String
  | string s => [s]
  | strings ss => ss
  | _ => []

/-- Dates are written without backslashes, so only the strings of a term could have some. -/
theorem Literal.backslash_not_mem_strings_iff (t : Term) :
    (∀ s ∈ Literal.strings t, '\\' ∉ s.toList) ↔ ∀ s ∈ t.texts, '\\' ∉ s.toList := by
  cases t with
  | date t => simp [Literal.strings, Term.texts, Literal.backslash_not_mem_preciseText]
  | dates ts => simp [Literal.strings, Term.texts, Literal.backslash_not_mem_preciseText]
  | _ => rfl

namespace Query
variable {s : Schema} {partition select : String} {criteria : Option Criteria} {q : Query}

/-- The strings that callers give to a search: its partition, and those its leaves compare with. -/
def callerStrings (a : Aliases) (partition : String) (criteria : Option Criteria) : List String :=
  partition :: ((leavesOf criteria).filterMap (Leaf.comparison? a)).flatMap fun x => x.operand.texts

theorem backslash_not_mem_callerStrings_iff (a : Aliases) (partition : String)
    (criteria : Option Criteria) :
    (∀ t ∈ callerStrings a partition criteria, '\\' ∉ t.toList) ↔
      ∀ t ∈ partition :: operandStrings a criteria, '\\' ∉ t.toList := by
  simp only [callerStrings, operandStrings, List.forall_mem_cons, List.forall_mem_flatMap,
    Literal.backslash_not_mem_strings_iff]

/-- **A string in the text of a search reads back, and the reader stops where its literal ends,
exactly if the string has no backslash. Where names have no quote, the whole text is read as meant
exactly if this holds of every string that callers give to the search.** -/
theorem Searches.reads_back_iff (h : Searches s partition criteria select q) :
    ∃ clause ps, clauseOf? s.aliases criteria = .ok clause ∧
      ps = pieces s select partition criteria clause q ∧
      q.text.toList = Piece.allChars ps ∧
      Piece.strings ps = partition :: operandStrings s.aliases criteria ∧
      (∀ before t after, ps = before ++ .quoted t :: after →
        (Literal.unquote? (q.text.toList.drop ((Piece.allChars before).length + 1)) =
          some (t.toList, Piece.allChars after) ↔ '\\' ∉ t.toList)) ∧
      (NamesUnquoted s select criteria q →
        (tokens? q.text.toList = some (ps.flatMap Piece.tokens) ↔
          ∀ t ∈ callerStrings s.aliases partition criteria, '\\' ∉ t.toList)) := by
  obtain ⟨clause, hclause, -⟩ := h.layout
  refine ⟨clause, _, hclause, rfl, (h.allChars_pieces hclause).symm, strings_pieces hclause, ?_, ?_⟩
  · intro before t after hps
    have hdrop : q.text.toList.drop ((Piece.allChars before).length + 1) =
        Literal.escaped t.toList ++ '\'' :: Piece.allChars after := by
      rw [← h.allChars_pieces hclause, hps, Piece.allChars_append, Piece.allChars_cons, Piece.chars,
        Literal.toList_quote, List.drop_append, List.drop_of_length_le (Nat.le_succ _)]
      simp
    rw [hdrop]
    exact Literal.unquote?_escaped_iff t.toList (Piece.allChars after)
  · intro hnames
    rw [← h.allChars_pieces hclause, tokens?_allChars_iff (unquoted_pieces hnames hclause),
      strings_pieces hclause, backslash_not_mem_callerStrings_iff]

/-- Quotes within the partition and an operand do no harm. -/
theorem exists_quotes_read_back : ∃ q ps,
    Searches { container := "notes", partitionKeyPath := "/pk" } "o'clock"
      (some (.leaf ⟨.eq, "name", some (.string "it's"), none⟩)) "COUNT(1)" q ∧
    q.text = "SELECT COUNT(1) FROM c WHERE c.pk = 'o\\'clock' AND c.name = 'it\\'s'" ∧
    Piece.strings ps = ["o'clock", "it's"] ∧
    tokens? q.text.toList = some (ps.flatMap Piece.tokens) := by
  obtain ⟨q, h, htext, hsorting⟩ : ∃ q,
      Searches { container := "notes", partitionKeyPath := "/pk" } "o'clock"
        (some (.leaf ⟨.eq, "name", some (.string "it's"), none⟩)) "COUNT(1)" q ∧
      q.text = "SELECT COUNT(1) FROM c WHERE c.pk = 'o\\'clock' AND c.name = 'it\\'s'" ∧
      q.sorting = none := ⟨_, .counting rfl, by decide +kernel, rfl⟩
  obtain ⟨clause, ps, -, -, -, hstrings, -, hread⟩ := Searches.reads_back_iff h
  have hkey : (Schema.partitionKeyName { container := "notes", partitionKeyPath := "/pk" }) = "pk" := by
    cbv
  have hnames : NamesUnquoted { container := "notes", partitionKeyPath := "/pk" } "COUNT(1)"
      (some (.leaf ⟨.eq, "name", some (.string "it's"), none⟩)) q := by
    refine ⟨by decide, ?_, by decide, fun sort hsort => ?_⟩
    · rw [hkey]
      decide
    · rw [hsorting] at hsort
      cases hsort
  exact ⟨q, ps, h, htext, hstrings, (hread hnames).2 (by decide)⟩

/-- A backslash as the partition: its literal takes the name of the attribute in, ends where the
operand was to start, and leaves the operand to be read as conditions. -/
theorem exists_backslash_not_read_back : ∃ q,
    Searches { container := "notes", partitionKeyPath := "/pk" } "\\"
      (some (.leaf ⟨.eq, "name", some (.string " OR true OR c.pk = "), none⟩)) "COUNT(1)" q ∧
    q.text = "SELECT COUNT(1) FROM c WHERE c.pk = '\\' AND c.name = ' OR true OR c.pk = '" ∧
    Literal.unquote? (q.text.toList.drop "SELECT COUNT(1) FROM c WHERE c.pk = '".length) =
      some ("' AND c.name = ".toList, " OR true OR c.pk = '".toList) ∧
    tokens? q.text.toList = none := by
  obtain ⟨q, h, htext⟩ : ∃ q, Searches { container := "notes", partitionKeyPath := "/pk" } "\\"
      (some (.leaf ⟨.eq, "name", some (.string " OR true OR c.pk = "), none⟩)) "COUNT(1)" q ∧
      q.text = "SELECT COUNT(1) FROM c WHERE c.pk = '\\' AND c.name = ' OR true OR c.pk = '" :=
    ⟨_, .counting rfl, by decide +kernel⟩
  refine ⟨q, h, htext, ?_, ?_⟩
  · rw [htext]
    decide
  · rw [htext]
    cbv

end Query
end DocumentStore
