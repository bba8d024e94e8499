import DocumentStore.Proofs.Action
import DocumentStore.Proofs.Store.Removal
import DocumentStore.Proofs.Store.Results
import DocumentStore.Service.Deletion
import Mathlib.Data.List.Forall2
import Mathlib.Data.List.Perm.Subperm

/-! Deletions by value in memory.

A round takes out one item for each row of a page, the one that the row names (`Deletes`). Which item
that is depends on the row's item alone, and an item is not taken out twice, so no item is found in two
rounds. A deletion that comes out ends with nothing left to find, so it has taken out all items that it
could find; and as it has taken out no more than it has found, it has taken out nothing else
(`Deletes.find?_of_settled`). For this it does not matter whether rows name their own items. -/
namespace DocumentStore

variable {container : String} {s s₁ s' : Store}

/-- In a container, items that a filter keeps are found under some keys, and the items that they name
are taken out under others. -/
structure Deletes (container : String) (filter : Option Criteria) (Names : Item → ItemKey → Prop)
    (found keys : List ItemKey) (s s' : Store) : Prop where
  without : s.Without container keys s'
  named : List.Forall₂ (fun key key' => ∃ item, s.find? container key = some item ∧
    kept filter item = true ∧ Names item key') found keys

namespace Deletes

variable {filter : Option Criteria} {Names : Item → ItemKey → Prop}
  {found keys found' keys' : List ItemKey}

theorem refl (container : String) (filter : Option Criteria) (Names : Item → ItemKey → Prop)
    (s : Store) : Deletes container filter Names [] [] s s where
  without := Store.Without.refl container s
  named := .nil

theorem trans (h : Deletes container filter Names found keys s s₁)
    (h' : Deletes container filter Names found' keys' s₁ s') :
    Deletes container filter Names (found ++ found') (keys ++ keys') s s' where
  without := h.without.trans h'.without
  named := by
    refine List.rel_append h.named (h'.named.imp fun key key' hnamed => ?_)
    obtain ⟨item, hitem, hkept, hnames⟩ := hnamed
    have hsame := (h.without.find?_of_isSome (Option.isSome_of_eq_some hitem)).2
    exact ⟨item, hsame ▸ hitem, hkept, hnames⟩

/-- An item that names one key is found once at most, since that key is taken out once. -/
theorem nodup_found (hnames : ∀ item key key', Names item key → Names item key' → key = key')
    (h : Deletes container filter Names found keys s s') : found.Nodup := by
  have hnodup := h.without.nodup
  have hnamed := h.named
  clear h
  induction hnamed with
  | nil => exact List.nodup_nil
  | @cons key key' found keys hhead htail ih =>
    obtain ⟨hfresh, hnodup⟩ := List.nodup_cons.1 hnodup
    refine List.nodup_cons.2 ⟨fun hmem => hfresh ?_, ih hnodup⟩
    -- Found again, the item names the same key again.
    obtain ⟨item, hitem, -, hname⟩ := hhead
    obtain ⟨key'', hkey'', item', hitem', -, hname'⟩ := exists_of_mem_forall₂ htail hmem
    obtain rfl := Option.some.inj (hitem.symm.trans hitem')
    rw [hnames item key' key'' hname hname']
    exact hkey''

/-- Where nothing is left to find, the items that the filter keeps are gone and all others are there. -/
theorem find?_of_settled (hnames : ∀ item key key', Names item key → Names item key' → key = key')
    (h : Deletes container filter Names found keys s s')
    (hsettled : s'.keptEntries container filter = []) (other : String) (key : ItemKey) (item : Item) :
    s'.find? other key = some item ↔
      s.find? other key = some item ∧ ¬(other = container ∧ kept filter item = true) := by
  have hnone : ∀ {key item}, s'.find? container key = some item → kept filter item = false := by
    intro key item hitem
    by_contra hkept
    have hmem := Store.mem_keptEntries_of_find? hitem (Bool.of_not_eq_false hkept)
    rw [hsettled] at hmem
    cases hmem
  -- What is found is kept by the filter, and what is kept by the filter is taken out.
  have hfound : ∀ key ∈ found, ∃ item, s.find? container key = some item ∧ kept filter item = true := by
    intro key hkey
    obtain ⟨_, -, item, hitem, hkept, -⟩ := exists_of_mem_forall₂ h.named hkey
    exact ⟨item, hitem, hkept⟩
  have htaken : ∀ {key item}, s.find? container key = some item → kept filter item = true →
      key ∈ keys := by
    intro key item hitem hkept
    by_contra hmem
    have hsame : s'.find? container key = s.find? container key := by
      rw [h.without.find?, if_neg fun hc => hmem hc.2]
    have := hnone (hsame.trans hitem)
    rw [hkept] at this
    cases this
  -- There are as many keys as were found, so no others are taken out.
  have hsubset : found ⊆ keys := by
    intro key hkey
    obtain ⟨item, hitem, hkept⟩ := hfound key hkey
    exact htaken hitem hkept
  have hperm : found.Perm keys :=
    ((h.nodup_found hnames).subperm hsubset).perm_of_length_le
      (Nat.le_of_eq h.named.length_eq.symm)
  rw [h.without.find?]
  constructor
  · intro hthere
    split at hthere
    · cases hthere
    · next hkey =>
      refine ⟨hthere, ?_⟩
      intro h
      obtain ⟨rfl, hkept⟩ := h
      exact hkey ⟨rfl, htaken hthere hkept⟩
  · intro h
    obtain ⟨hthere, hkept⟩ := h
    rw [if_neg]
    · exact hthere
    · intro h
      obtain ⟨rfl, hkey⟩ := h
      obtain ⟨item', hitem', hkept'⟩ := hfound key (hperm.mem_iff.2 hkey)
      obtain rfl := Option.some.inj (hthere.symm.trans hitem')
      exact hkept ⟨rfl, hkept'⟩

end Deletes
/-! ### Rounds -/

open DocumentStore.Action

/-- Taking out what the rows of some entries name, all of which the filter keeps. -/
theorem Deletes.of_rows {filter : Option Criteria} {fields : List String}
    {Names : Item → ItemKey → Prop} {es : List (ItemKey × Item)} {keys : List ItemKey}
    (hes : ∀ e ∈ es, e ∈ s.keptEntries container filter)
    (hnamed : List.Forall₂ Names (es.map fun e => e.2.project fields) keys)
    (hwithout : s.Without container keys s') :
    Deletes container filter (fun item key => Names (item.project fields) key) (es.map Prod.fst) keys
      s s' where
  without := hwithout
  named := by
    rw [List.forall₂_map_left_iff] at hnamed ⊢
    refine ((List.forall₂_and_left _ _).2 ⟨hes, hnamed⟩).imp fun e key he => ?_
    obtain ⟨hfound, hkept⟩ := Store.find?_of_mem_keptEntries he.1
    exact ⟨e.2, hfound, hkept, he.2⟩

/-- Rounds on pages of what a filter keeps, each of which takes out the items that its rows name, end
with nothing left to find, or with as many items taken out as there were to be rounds. -/
theorem deletes_of_deleteRounds {filter : Option Criteria} {fields : List String} {size : Nat}
    {Names : Item → ItemKey → Prop} {ask : Action Page} {remove : List Item → Action Unit}
    (hask : ∀ {s s' page}, outcome ask s = (.ok page, s') → s' = s ∧
      page.items = ((s.keptEntries container filter).take (size + 1)).map fun e => e.2.project fields)
    (hremove : ∀ {rows s s'}, outcome (remove rows) s = (.ok (), s') →
      ∃ keys, List.Forall₂ Names rows keys ∧ s.Without container keys s') {most : Nat}
    (h : outcome (Service.deleteRounds ask remove most) s = (.ok (), s')) :
    ∃ found keys,
      Deletes container filter (fun item key => Names (item.project fields) key) found keys s s' ∧
      (s'.keptEntries container filter = [] ∨ most ≤ keys.length) := by
  induction most generalizing s with
  | zero =>
    cases h
    exact ⟨[], [], .refl .., .inr (Nat.zero_le _)⟩
  | succ most ih =>
    obtain ⟨page, s₀, hpage, hround⟩ := outcome_bind_eq_ok_iff.1 h
    obtain ⟨rfl, hitems⟩ := hask hpage
    rw [hitems] at hround
    cases hkept : s₀.keptEntries container filter with
    | nil =>
      rw [hkept] at hround
      cases hround
      exact ⟨[], [], .refl .., .inl hkept⟩
    | cons e rest =>
      rw [hkept] at hround
      obtain ⟨_, s₁, hremoved, hrest⟩ := outcome_bind_eq_ok_iff.1 hround
      obtain ⟨keys, hnamed, hwithout⟩ := hremove hremoved
      have hrows : ∀ e' ∈ (e :: rest).take (size + 1), e' ∈ s₀.keptEntries container filter := by
        intro e' he'
        rw [hkept]
        exact List.mem_of_mem_take he'
      have hfirst := Deletes.of_rows hrows hnamed hwithout
      obtain ⟨found', keys', hrounds, hend⟩ := ih hrest
      refine ⟨_, _, hfirst.trans hrounds, hend.imp_right fun hmost => ?_⟩
      -- The page has a row, so this round takes out an item.
      have hlength := hnamed.length_eq
      rw [List.length_append, ← hlength, List.take_succ_cons, List.map_cons, List.length_cons]
      omega

end DocumentStore
