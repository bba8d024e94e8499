/-! Finite maps as lists of entries in strictly increasing key order.

The order belongs to the type, so a map is determined by its lookups (`OrderedMap.ext_get?`),
and each operation is pinned by one equation about `get?`. The functions on bare entry lists
(`Entries`) come first: a nested JSON object holds such a list without the proof of order. -/
namespace DocumentStore

variable {κ β : Type}

namespace Entries

/-- The value under a key: that of the first entry with the key. -/
def find? [DecidableEq κ] (k : κ) : List (κ × β) → Option β
  | [] => none
  | e :: rest => if k = e.1 then some e.2 else find? k rest

/-- Sets the value under a key, replacing an entry in its place and otherwise keeping the order. -/
def insert [Ord κ] (k : κ) (v : β) : List (κ × β) → List (κ × β)
  | [] => [(k, v)]
  | e :: rest =>
    match compare k e.1 with
    | .lt => (k, v) :: e :: rest
    | .eq => (k, v) :: rest
    | .gt => e :: insert k v rest

/-- Drops the entries under a key. -/
def erase [DecidableEq κ] (k : κ) (es : List (κ × β)) : List (κ × β) :=
  es.filter fun e => !decide (k = e.1)

/-- Enters the pairs one after the other, so that a later pair replaces an earlier one. -/
def ofList [Ord κ] (es : List (κ × β)) : List (κ × β) :=
  es.foldl (fun acc e => insert e.1 e.2 acc) []

/-- Keys increase strictly, so each occurs once. -/
def Ordered [Ord κ] (es : List (κ × β)) : Prop :=
  es.Pairwise fun a b => compare a.1 b.1 = .lt

section Lookup
variable [DecidableEq κ]

@[simp] theorem find?_nil (k : κ) : find? k ([] : List (κ × β)) = none := rfl

theorem find?_cons (k : κ) (e : κ × β) (rest : List (κ × β)) :
    find? k (e :: rest) = if k = e.1 then some e.2 else find? k rest := rfl

theorem find?_insert [Ord κ] [Std.LawfulEqOrd κ] (k k' : κ) (v : β) (es : List (κ × β)) :
    find? k' (insert k v es) = if k' = k then some v else find? k' es := by
  induction es with
  | nil => rfl
  | cons e rest ih =>
    unfold insert
    split
    · rfl
    · next h =>
      have hk : k = e.1 := Std.LawfulEqOrd.eq_of_compare h
      subst hk
      by_cases hk' : k' = e.1 <;> simp [find?_cons, hk']
    · next h =>
      have hne : k ≠ e.1 := fun hk => by simp [hk] at h
      rw [find?_cons, ih, find?_cons]
      by_cases hk' : k' = e.1
      · have : k' ≠ k := fun hc => hne (hc.symm.trans hk')
        simp [hk', Ne.symm hne]
      · simp [hk']

theorem find?_erase (k k' : κ) (es : List (κ × β)) :
    find? k' (erase k es) = if k' = k then none else find? k' es := by
  induction es with
  | nil => simp [erase]
  | cons e rest ih =>
    unfold erase at ih ⊢
    by_cases h : k = e.1
    · rw [List.filter_cons_of_neg (by simp [h]), ih, find?_cons]
      by_cases hk : k' = k <;> simp [hk, ← h]
    · rw [List.filter_cons_of_pos (by simp [h]), find?_cons, ih, find?_cons]
      by_cases hk : k' = e.1
      · have : ¬e.1 = k := fun hc => h hc.symm
        simp [hk, this]
      · simp [hk]

theorem mem_of_find? {k : κ} {v : β} {es : List (κ × β)} (h : find? k es = some v) : (k, v) ∈ es := by
  induction es with
  | nil => simp at h
  | cons e rest ih =>
    rw [find?_cons] at h
    split at h
    · next hk => cases h; subst hk; simp
    · exact List.mem_cons_of_mem _ (ih h)

end Lookup

section Order
variable [Ord κ]

theorem mem_insert {k : κ} {v : β} {es : List (κ × β)} {e : κ × β} (h : e ∈ insert k v es) :
    e = (k, v) ∨ e ∈ es := by
  induction es with
  | nil => exact .inl (by simpa [insert] using h)
  | cons e' rest ih =>
    unfold insert at h
    split at h <;> simp only [List.mem_cons] at h ⊢ <;> grind

theorem Ordered.insert [Std.TransOrd κ] [Std.LawfulEqOrd κ] {es : List (κ × β)} (h : Ordered es)
    (k : κ) (v : β) : Ordered (Entries.insert k v es) := by
  induction es with
  | nil => exact List.pairwise_singleton _ _
  | cons e rest ih =>
    obtain ⟨hhead, htail⟩ := List.pairwise_cons.1 h
    unfold Entries.insert
    split
    · next hlt =>
      refine List.pairwise_cons.2 ⟨fun a ha => ?_, h⟩
      rcases List.mem_cons.1 ha with rfl | ha
      · exact hlt
      · exact Std.TransCmp.lt_trans hlt (hhead a ha)
    · next heq =>
      have hk : k = e.1 := Std.LawfulEqOrd.eq_of_compare heq
      exact List.pairwise_cons.2 ⟨fun a ha => hk ▸ hhead a ha, htail⟩
    · next hgt =>
      refine List.pairwise_cons.2 ⟨fun a ha => ?_, ih htail⟩
      rcases mem_insert ha with rfl | ha
      · exact Std.OrientedCmp.gt_iff_lt.1 hgt
      · exact hhead a ha

theorem Ordered.erase [DecidableEq κ] {es : List (κ × β)} (h : Ordered es) (k : κ) :
    Ordered (Entries.erase k es) :=
  List.Pairwise.filter _ h

theorem ordered_ofList [Std.TransOrd κ] [Std.LawfulEqOrd κ] (es : List (κ × β)) :
    Ordered (ofList es) := by
  unfold ofList
  suffices ∀ acc, Ordered acc → Ordered (es.foldl (fun acc e => Entries.insert e.1 e.2 acc) acc) from
    this [] List.Pairwise.nil
  induction es with
  | nil => exact fun _ h => h
  | cons e rest ih => exact fun acc h => ih _ (h.insert e.1 e.2)

/-- In an ordered list a key behind the head is not the head's. -/
theorem Ordered.find?_of_mem [DecidableEq κ] [Std.TransOrd κ] [Std.LawfulEqOrd κ]
    {es : List (κ × β)} (h : Ordered es) {k : κ} {v : β} (hm : (k, v) ∈ es) : find? k es = some v := by
  induction es with
  | nil => simp at hm
  | cons e rest ih =>
    obtain ⟨hhead, htail⟩ := List.pairwise_cons.1 h
    rw [find?_cons]
    rcases List.mem_cons.1 hm with rfl | hm
    · simp
    · have hlt := hhead _ hm
      have hne : ¬k = e.1 := fun hk => by simp [hk] at hlt
      simp [hne, ih htail hm]

/-- Two ordered lists with the same lookups are equal. -/
theorem Ordered.ext [DecidableEq κ] [Std.TransOrd κ] [Std.LawfulEqOrd κ] {es fs : List (κ × β)}
    (he : Ordered es) (hf : Ordered fs) (h : ∀ k, find? k es = find? k fs) : es = fs := by
  induction es generalizing fs with
  | nil =>
    cases fs with
    | nil => rfl
    | cons f rest => simpa [find?_cons] using h f.1
  | cons e rest ih =>
    cases fs with
    | nil => simpa [find?_cons] using h e.1
    | cons f rest' =>
      obtain ⟨hehead, hetail⟩ := List.pairwise_cons.1 he
      obtain ⟨hfhead, hftail⟩ := List.pairwise_cons.1 hf
      have hkey : e.1 = f.1 := by
        have hef := mem_of_find? ((h e.1).symm.trans (he.find?_of_mem (v := e.2) (by simp)))
        have hfe := mem_of_find? ((h f.1).trans (hf.find?_of_mem (v := f.2) (by simp)))
        rcases List.mem_cons.1 hef with heq | hef
        · exact congrArg Prod.fst heq
        · rcases List.mem_cons.1 hfe with heq | hfe
          · exact (congrArg Prod.fst heq).symm
          · have h1 := hfhead _ hef
            have h2 := hehead _ hfe
            have := Std.TransCmp.lt_trans h1 h2
            simp at this
      have hval : e.2 = f.2 := by
        have := h e.1
        rw [find?_cons, find?_cons] at this
        simpa [hkey] using this
      have htails : rest = rest' := by
        refine ih hetail hftail fun k => ?_
        by_cases hk : k = e.1
        · have none_of {l : List (κ × β)} (hl : ∀ a ∈ l, compare e.1 a.1 = .lt) : find? k l = none := by
            cases hc : find? k l with
            | none => rfl
            | some v =>
              have hlt := hl _ (mem_of_find? hc)
              simp [hk] at hlt
          rw [none_of hehead, none_of fun a ha => hkey ▸ hfhead a ha]
        · have := h k
          rw [find?_cons, find?_cons] at this
          simpa [hk, ← hkey] using this
      rw [Prod.ext hkey hval, htails]

end Order
end Entries

/-- A finite map whose entries are in strictly increasing key order. -/
structure OrderedMap (κ β : Type) [Ord κ] where
  entries : List (κ × β)
  ordered : Entries.Ordered entries

namespace OrderedMap
variable [Ord κ]

/-- The map without entries. -/
def empty : OrderedMap κ β := ⟨[], List.Pairwise.nil⟩

instance : Inhabited (OrderedMap κ β) := ⟨empty⟩

def size (m : OrderedMap κ β) : Nat := m.entries.length
def isEmpty (m : OrderedMap κ β) : Bool := m.entries.isEmpty
def keys (m : OrderedMap κ β) : List κ := m.entries.map Prod.fst
def values (m : OrderedMap κ β) : List β := m.entries.map Prod.snd

/-- The value under a key. -/
def get? [DecidableEq κ] (m : OrderedMap κ β) (k : κ) : Option β := Entries.find? k m.entries

def contains [DecidableEq κ] (m : OrderedMap κ β) (k : κ) : Bool := (m.get? k).isSome

/-- The map without the entry under a key. -/
def erase [DecidableEq κ] (m : OrderedMap κ β) (k : κ) : OrderedMap κ β :=
  ⟨Entries.erase k m.entries, m.ordered.erase k⟩

/-- The entries that pass a test. -/
def filter (p : κ → β → Bool) (m : OrderedMap κ β) : OrderedMap κ β :=
  ⟨m.entries.filter fun e => p e.1 e.2, List.Pairwise.filter _ m.ordered⟩

variable [Std.TransOrd κ] [Std.LawfulEqOrd κ]

/-- Sets the value under a key. -/
def insert (m : OrderedMap κ β) (k : κ) (v : β) : OrderedMap κ β :=
  ⟨Entries.insert k v m.entries, m.ordered.insert k v⟩

/-- The map of a list of pairs; of two pairs with one key the later counts. -/
def ofList (es : List (κ × β)) : OrderedMap κ β := ⟨Entries.ofList es, Entries.ordered_ofList es⟩

variable [DecidableEq κ]

/-- A map is determined by its lookups. -/
theorem ext_get? {m n : OrderedMap κ β} (h : ∀ k, m.get? k = n.get? k) : m = n := by
  obtain ⟨es, he⟩ := m
  obtain ⟨fs, hf⟩ := n
  have : es = fs := he.ext hf h
  subst this
  rfl

omit [Std.TransOrd κ] [Std.LawfulEqOrd κ] in
@[simp] theorem get?_empty (k : κ) : (empty : OrderedMap κ β).get? k = none := rfl

@[simp] theorem get?_insert (m : OrderedMap κ β) (k k' : κ) (v : β) :
    (m.insert k v).get? k' = if k' = k then some v else m.get? k' :=
  Entries.find?_insert k k' v m.entries

omit [Std.TransOrd κ] [Std.LawfulEqOrd κ] in
@[simp] theorem get?_erase (m : OrderedMap κ β) (k k' : κ) :
    (m.erase k).get? k' = if k' = k then none else m.get? k' :=
  Entries.find?_erase k k' m.entries

end OrderedMap
end DocumentStore
