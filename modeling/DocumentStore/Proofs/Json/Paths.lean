import DocumentStore.Json.Tree

/-! Paths into JSON values, and the order of what they lead to.

A path behind another one is followed step by step (`Value.at?_append`). What is read has its members in
key order wherever there are any (`Json.ordered_of_read?`), and a value in that order is determined by what
its paths lead to, where that is no object (`Value.eq_of_alike`). -/
namespace DocumentStore

/-! ### Entries -/

namespace Entries
variable [Ord κ] [Std.TransOrd κ] [Std.LawfulEqOrd κ]

omit [Std.TransOrd κ] [Std.LawfulEqOrd κ] in
theorem mem_of_mem_ofList {es : List (κ × β)} {e : κ × β} (h : e ∈ ofList es) : e ∈ es := by
  suffices ∀ acc, e ∈ es.foldl (fun acc e => insert e.1 e.2 acc) acc → e ∈ acc ∨ e ∈ es from
    (this [] h).resolve_left List.not_mem_nil
  clear h
  induction es with
  | nil => exact fun acc h => .inl h
  | cons e' rest ih =>
    intro acc h
    rw [List.mem_cons]
    obtain h | h := ih _ h
    · obtain rfl | h := mem_insert h
      · exact .inr (.inl rfl)
      · exact .inl h
    · exact .inr (.inr h)

/-- To enter what is there already changes nothing. -/
theorem Ordered.insert_eq_self [DecidableEq κ] {es : List (κ × β)} (h : Ordered es) {k : κ} {v : β}
    (hv : find? k es = some v) : Entries.insert k v es = es := by
  refine (h.insert k v).ext h fun k' => ?_
  rw [find?_insert]
  split
  · next hk => rw [hk, hv]
  · rfl

end Entries

namespace Json
namespace Value
variable {v w : Value} {members : List (String × Value)} {name : String} {path rest : List String}

/-! ### Paths -/

theorem at?_append (v : Value) (path rest : List String) :
    v.at? (path ++ rest) = (v.at? path).bind (·.at? rest) := by
  induction path generalizing v with
  | nil => rfl
  | cons name path ih =>
    rw [List.cons_append, at?, at?, Option.bind_assoc]
    exact congrArg _ (funext fun w => ih w)

theorem at?_singleton (v : Value) (name : String) : v.at? [name] = v.member? name := by
  simp [at?]

/-- Only objects have something below them. -/
theorem exists_eq_obj_of_at? (h : v.at? (name :: rest) = some w) : ∃ members, v = .obj members := by
  obtain ⟨_, hmember, -⟩ := Option.bind_eq_some_iff.1 h
  cases v with
  | obj members => exact ⟨members, rfl⟩
  | _ => cases hmember

/-! ### Order -/

theorem membersOrdered_iff : MembersOrdered members ↔ ∀ e ∈ members, e.2.Ordered := by
  induction members with
  | nil => simp [MembersOrdered]
  | cons e rest ih =>
    rw [List.forall_mem_cons, ← ih]
    rfl

theorem ordered_obj_iff :
    (obj members).Ordered ↔ Entries.Ordered members ∧ ∀ e ∈ members, e.2.Ordered := by
  rw [← membersOrdered_iff, Ordered]

theorem ordered_record {members : List (String × Value)} (h : ∀ e ∈ members, e.2.Ordered) :
    (record members).Ordered :=
  ordered_obj_iff.2 ⟨Entries.ordered_ofList _, fun e he => h e (Entries.mem_of_mem_ofList he)⟩

theorem Ordered.of_member? (h : v.Ordered) (hw : v.member? name = some w) : w.Ordered := by
  cases v with
  | obj members => exact (ordered_obj_iff.1 h).2 _ (Entries.mem_of_find? hw)
  | _ => cases hw

theorem Ordered.of_at? (h : v.Ordered) (hw : v.at? path = some w) : w.Ordered := by
  induction path generalizing v with
  | nil =>
    cases hw
    exact h
  | cons name rest ih =>
    obtain ⟨u, hu, hw⟩ := Option.bind_eq_some_iff.1 hw
    exact ih (h.of_member? hu) hw

theorem Ordered.insert (h : (obj members).Ordered) (hv : v.Ordered) (name : String) :
    (obj (Entries.insert name v members)).Ordered := by
  obtain ⟨hmembers, hvalues⟩ := ordered_obj_iff.1 h
  refine ordered_obj_iff.2 ⟨hmembers.insert name v, fun e he => ?_⟩
  obtain rfl | he := Entries.mem_insert he
  · exact hv
  · exact hvalues e he

/-- At the end of each path two values have the same, or both an object. -/
def Alike (v w : Value) : Prop :=
  ∀ path, v.at? path = w.at? path ∨
    (∃ members, v.at? path = some (.obj members)) ∧ ∃ members, w.at? path = some (.obj members)

/-- Values in key order are alike only if they are the same. -/
theorem eq_of_alike (hv : v.Ordered) (hw : w.Ordered) (h : v.Alike w) : v = w := by
  induction hsize : sizeOf v using Nat.strongRecOn generalizing v w with
  | ind size ih =>
    obtain hself | ⟨⟨members, hmembers⟩, ⟨members', hmembers'⟩⟩ := h []
    · exact Option.some.inj hself
    · cases hmembers
      cases hmembers'
      refine congrArg obj ((ordered_obj_iff.1 hv).1.ext (ordered_obj_iff.1 hw).1 fun name => ?_)
      have hname := h [name]
      rw [at?_singleton, at?_singleton] at hname
      obtain hsame | ⟨⟨inner, hinner⟩, ⟨inner', hinner'⟩⟩ := hname
      · exact hsame
      · have halike : (obj inner).Alike (obj inner') := by
          intro path
          have hpath := h (name :: path)
          rwa [at?, at?, hinner, hinner'] at hpath
        have hlt : sizeOf (obj inner) < size := by
          have := List.sizeOf_lt_of_mem (Entries.mem_of_find? hinner)
          simp only [obj.sizeOf_spec, Prod.mk.sizeOf_spec] at *
          omega
        have heq := ih _ hlt (hv.of_member? hinner) (hw.of_member? hinner') halike rfl
        exact hinner.trans (heq ▸ hinner'.symm)

end Value

/-! ### What is read -/

namespace Tree

mutual
theorem ordered_of_value? {depth : Nat} {t : Tree} {v : Value} (h : t.value? depth = some v) : v.Ordered := by
  cases t with
  | null | bool b =>
    cases h
    trivial
  | num n | str s =>
    obtain ⟨_, -, rfl⟩ := Option.map_eq_some_iff.1 h
    trivial
  | arr es =>
    cases depth with
    | zero => cases h
    | succ depth =>
      obtain ⟨vs, hvs, rfl⟩ := Option.map_eq_some_iff.1 h
      exact allOrdered_of_values? hvs
  | obj ms =>
    cases depth with
    | zero => cases h
    | succ depth =>
      obtain ⟨es, hes, rfl⟩ := Option.map_eq_some_iff.1 h
      exact Value.ordered_record (ordered_of_entries? hes)
theorem allOrdered_of_values? {depth : Nat} {ts : List Tree} {vs : List Value}
    (h : values? depth ts = some vs) : Value.AllOrdered vs := by
  cases ts with
  | nil =>
    cases h
    trivial
  | cons t rest =>
    obtain ⟨v, hv, h⟩ := Option.bind_eq_some_iff.1 h
    obtain ⟨others, hothers, h⟩ := Option.bind_eq_some_iff.1 h
    cases h
    exact ⟨ordered_of_value? hv, allOrdered_of_values? hothers⟩
theorem ordered_of_entries? {depth : Nat} {ms : List (Option String × Tree)} {es : List (String × Value)}
    (h : entries? depth ms = some es) : ∀ e ∈ es, e.2.Ordered := by
  cases ms with
  | nil =>
    cases h
    exact fun _ he => absurd he List.not_mem_nil
  | cons m rest =>
    obtain ⟨name, hname, h⟩ := Option.bind_eq_some_iff.1 h
    obtain ⟨v, hv, h⟩ := Option.bind_eq_some_iff.1 h
    obtain ⟨others, hothers, h⟩ := Option.bind_eq_some_iff.1 h
    cases h
    exact List.forall_mem_cons.2 ⟨ordered_of_value? hv, ordered_of_entries? hothers⟩
end

end Tree

/-- What is read has the members of each object in key order. -/
theorem ordered_of_read? {s : String} {v : Value} (h : read? s = some v) : v.Ordered := by
  obtain ⟨t, -, hv⟩ := Option.bind_eq_some_iff.1 h
  exact Tree.ordered_of_value? hv

end Json
end DocumentStore
