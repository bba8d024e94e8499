import DocumentStore.OrderedMap

/-! Lookups in lists of entries, and in the maps made of them.

In a list whose keys differ from each other, what is found under a key is the entry with the key,
wherever it stands (`Entries.find?_eq_some_iff`). Of entries with one key the last counts in the map made
of a list (`OrderedMap.get?_ofList`). -/
namespace DocumentStore

variable {κ β : Type} [DecidableEq κ]

namespace Entries

/-- No two entries have the same key. -/
def Distinct (es : List (κ × β)) : Prop := es.Pairwise fun a b => a.1 ≠ b.1

/-- Something is found under the key of every entry. -/
theorem exists_find?_of_mem {e : κ × β} {es : List (κ × β)} (h : e ∈ es) : ∃ v, find? e.1 es = some v := by
  induction es with
  | nil => cases h
  | cons e' rest ih =>
    rw [find?_cons]
    split
    · exact ⟨_, rfl⟩
    · next hne =>
      obtain rfl | h := List.mem_cons.1 h
      · exact absurd rfl hne
      · exact ih h

theorem find?_append (k : κ) (es fs : List (κ × β)) :
    find? k (es ++ fs) = (find? k es).or (find? k fs) := by
  induction es with
  | nil => rfl
  | cons e rest ih =>
    rw [List.cons_append, find?_cons, find?_cons, ih]
    split <;> rfl

theorem find?_filter (p : κ → Bool) (k : κ) (es : List (κ × β)) :
    find? k (es.filter fun e => p e.1) = if p k then find? k es else none := by
  induction es with
  | nil => simp
  | cons e rest ih =>
    rw [List.filter_cons, find?_cons]
    by_cases hk : k = e.1
    · subst hk
      split
      · rw [find?_cons, if_pos rfl, if_pos rfl]
      · next he => rw [ih, if_neg he]
    · rw [if_neg hk]
      split
      · rw [find?_cons, if_neg hk, ih]
      · exact ih

theorem find?_eq_some_iff {es : List (κ × β)} (h : Distinct es) {k : κ} {v : β} :
    find? k es = some v ↔ (k, v) ∈ es := by
  refine ⟨mem_of_find?, fun hmem => ?_⟩
  induction es with
  | nil => cases hmem
  | cons e rest ih =>
    obtain ⟨hhead, htail⟩ := List.pairwise_cons.1 h
    rw [find?_cons]
    obtain rfl | hmem := List.mem_cons.1 hmem
    · rw [if_pos rfl]
    · rw [if_neg fun hk => hhead _ hmem hk.symm]
      exact ih htail hmem

theorem find?_reverse {es : List (κ × β)} (h : Distinct es) (k : κ) :
    find? k es.reverse = find? k es := by
  have hreverse : Distinct es.reverse := List.pairwise_reverse.2 (h.imp fun hne => hne.symm)
  refine Option.ext fun v => ?_
  rw [find?_eq_some_iff h, find?_eq_some_iff hreverse, List.mem_reverse]

section Order
variable [Ord κ] [Std.LawfulEqOrd κ]

omit [DecidableEq κ] in
theorem Ordered.distinct {es : List (κ × β)} (h : Ordered es) : Distinct es := by
  refine List.Pairwise.imp (fun {a b} hlt heq => ?_) h
  simp [heq] at hlt

theorem find?_ofList (k : κ) (es : List (κ × β)) : find? k (ofList es) = find? k es.reverse := by
  unfold ofList
  suffices ∀ acc, find? k (es.foldl (fun acc e => insert e.1 e.2 acc) acc) =
      (find? k es.reverse).or (find? k acc) by
    rw [this, find?_nil, Option.or_none]
  induction es with
  | nil => exact fun _ => rfl
  | cons e rest ih =>
    intro acc
    rw [List.foldl_cons, ih, find?_insert, List.reverse_cons, find?_append, Option.or_assoc, find?_cons]
    split <;> rfl

end Order
end Entries

namespace OrderedMap
variable [Ord κ] [Std.TransOrd κ] [Std.LawfulEqOrd κ]

omit [Std.TransOrd κ] in
theorem get?_eq_some_iff {m : OrderedMap κ β} {k : κ} {v : β} :
    m.get? k = some v ↔ (k, v) ∈ m.entries :=
  Entries.find?_eq_some_iff m.ordered.distinct

omit [Std.TransOrd κ] [Std.LawfulEqOrd κ] in
theorem get?_filter (p : κ → Bool) (m : OrderedMap κ β) (k : κ) :
    (m.filter fun k _ => p k).get? k = if p k then m.get? k else none :=
  Entries.find?_filter p k m.entries

omit [Std.TransOrd κ] in
theorem get?_filter_eq_some_iff {p : κ → β → Bool} {m : OrderedMap κ β} {k : κ} {v : β} :
    (m.filter p).get? k = some v ↔ m.get? k = some v ∧ p k v = true := by
  rw [get?_eq_some_iff, get?_eq_some_iff]
  exact List.mem_filter

omit [Std.TransOrd κ] [Std.LawfulEqOrd κ] in
theorem contains_iff {m : OrderedMap κ β} {k : κ} : m.contains k = true ↔ ∃ v, m.get? k = some v :=
  Option.isSome_iff_exists

theorem get?_ofList (es : List (κ × β)) (k : κ) :
    (ofList es).get? k = Entries.find? k es.reverse :=
  Entries.find?_ofList k es

end OrderedMap
end DocumentStore
