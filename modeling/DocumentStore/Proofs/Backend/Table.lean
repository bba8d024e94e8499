import DocumentStore.Backend.Memory
import DocumentStore.Proofs.Action
import DocumentStore.Proofs.Item

/-! A backend in memory is a table of items, one under each container, partition and id.

When a call comes out, what it answers and which entry of the table it changes, if any, is its contract
(`Command.Contract`), and every call keeps it on every store (`Memory.keeps`). So whatever calls came
before, each entry has the id that it is filed under and all that is stamped on a write
(`Memory.refines_table`). -/
namespace DocumentStore
open DocumentStore.Action

/-! ### Tables -/

/-- What is filed under each key of each container. -/
abbrev Table := String → ItemKey → Option Item

/-- The table with another entry under a key, or with none. -/
def Table.set (t : Table) (container : String) (key : ItemKey) (entry : Option Item) : Table :=
  fun other key' => if other = container ∧ key' = key then entry else t other key'

/-- The item has an id, and all fields that are stamped on a write. -/
structure Item.IsEntry (id : String) (item : Item) : Prop where
  id : item.id? = some id
  stamped : ∀ name ∈ Reserved.systemFields, (item.get? name).isSome = true

/-- The entry that an item makes under an id: its other attributes are those of the item. -/
structure Item.Enters (item : Item) (id : String) (entry : Item) : Prop extends entry.IsEntry id where
  others : ∀ name ∉ Reserved.systemFields, name ≠ Reserved.id → entry.get? name = item.get? name

/-- Every entry has the id of its key, and all fields that are stamped on a write. -/
def Table.Sound (t : Table) : Prop :=
  ∀ container key item, t container key = some item → item.IsEntry key.id

/-! ### Calls -/

/-- A call of a backend. -/
inductive Command where
  | create (container partition : String) (item : Item)
  | read (container id partition : String)
  | readMany (container : String) (keys : List (String × String))
  | replace (container id partition : String) (item : Item)
  | delete (container id partition : String)
  | query (container : String) (q : Query) (token : Option String)

/-- What a call yields. -/
inductive Answer where
  | item (item : Item)
  | items (items : List Item)
  | page (page : Page)

namespace Command

/-- The call made to a backend. -/
def run (b : Backend) : Command → Action Answer
  | create container partition item => .item <$> b.create container partition item
  | read container id partition => .item <$> b.read container id partition
  | readMany container keys => .items <$> b.readMany container keys
  | replace container id partition item => .item <$> b.replace container id partition item
  | delete container id partition => .item <$> b.delete container id partition
  | query container q token => .page <$> b.query container q token

/-- What a call owes to whoever takes the backend for a table: the conditions that it comes out under, its
answer, and the table that it leaves. -/
def Contract (t : Table) (answer : Result Answer) (t' : Table) : Command → Prop
  | create container partition item =>
    (answer.isOk = true ↔ ∃ id, item.id? = some id ∧ t container ⟨partition, id⟩ = none) ∧
    ∀ a, answer = .ok a → ∃ id entry, item.id? = some id ∧ item.Enters id entry ∧ a = .item entry ∧
      t' = t.set container ⟨partition, id⟩ (some entry)
  | read container id partition =>
    (answer.isOk = true ↔ (t container ⟨partition, id⟩).isSome = true) ∧
    (∀ a, answer = .ok a → ∃ entry, t container ⟨partition, id⟩ = some entry ∧ a = .item entry) ∧ t' = t
  | readMany container keys =>
    answer = .ok (.items (keys.filterMap fun (id, partition) => t container ⟨partition, id⟩)) ∧ t' = t
  | replace container id partition item =>
    (answer.isOk = true ↔ (t container ⟨partition, id⟩).isSome = true) ∧
    ∀ a, answer = .ok a → ∃ entry, item.Enters id entry ∧ a = .item entry ∧
      t' = t.set container ⟨partition, id⟩ (some entry)
  | delete container id partition =>
    (answer.isOk = true ↔ (t container ⟨partition, id⟩).isSome = true) ∧
    ∀ a, answer = .ok a → ∃ entry, t container ⟨partition, id⟩ = some entry ∧ a = .item entry ∧
      t' = t.set container ⟨partition, id⟩ none
  | query _ _ _ => t' = t

end Command

/-- The store after calls one after the other, of which some may have failed. -/
def Backend.after (b : Backend) (commands : List Command) (s : Store) : Store :=
  commands.foldl (fun s command => (outcome (command.run b) s).2) s

/-! ### Entries -/

/-- Stamping an item with an id makes it an entry. -/
theorem Item.enters_stamped {stamp : Stamp} {container id : String} {item item' : Item}
    (hid : item'.id? = some id)
    (hothers : ∀ name ≠ Reserved.id, item'.get? name = item.get? name) :
    item.Enters id (item'.stamped stamp container) where
  id := id?_stamped.trans hid
  stamped _ := isSome_get?_stamped
  others name hsystem hne := by rw [get?_stamped hsystem, hothers name hne]

/-! ### What each call comes to -/

theorem Store.find?_put_eq (s : Store) (container : String) (key : ItemKey) (item : Item) :
    (s.put container key item).find? = Table.set s.find? container key (some item) :=
  funext fun other => funext fun key' => s.find?_put container other key key' item

theorem Store.find?_remove_eq (s : Store) (container : String) (key : ItemKey) :
    (s.remove container key).find? = Table.set s.find? container key none :=
  funext fun other => funext fun key' => s.find?_remove container other key key'

/-- An item is filed, stamped, where it has an id and the place under it is free. -/
theorem Store.create_cases (stamp : Nat → Stamp) (container partition : String) (item : Item)
    (s : Store) :
    (∃ id, item.id? = some id ∧ s.find? container ⟨partition, id⟩ = none ∧
      Store.create stamp container partition item s =
        .ok (item.stamped (stamp s.writes) container,
          s.put container ⟨partition, id⟩ (item.stamped (stamp s.writes) container))) ∨
    (¬∃ id, item.id? = some id ∧ s.find? container ⟨partition, id⟩ = none) ∧
      ∃ e, Store.create stamp container partition item s = .error e := by
  rw [Store.create]
  cases item.id? with
  | none => exact .inr ⟨nofun, _, rfl⟩
  | some id =>
    cases hfound : s.find? container ⟨partition, id⟩ with
    | none => exact .inl ⟨id, rfl, hfound, by simp only [hfound]; rfl⟩
    | some old =>
      refine .inr ⟨fun h => ?_, _, by simp only [hfound]; rfl⟩
      obtain ⟨_, hid, hfree⟩ := h
      cases hid
      rw [hfound] at hfree
      cases hfree

/-- The call keeps its contract on a store, and where it fails the store is as it was. -/
structure Memory.Keeps (m : Memory) (s : Store) (command : Command) : Prop where
  contract : command.Contract s.find? (outcome (command.run m.backend) s).1
    (outcome (command.run m.backend) s).2.find?
  unchanged : ∀ e, (outcome (command.run m.backend) s).1 = .error e →
    (outcome (command.run m.backend) s).2 = s

namespace Memory
variable (m : Memory) (s : Store)

theorem keeps_of_change {command : Command} {change : Store → Result (Item × Store)}
    (hrun : command.run m.backend = Answer.item <$> ofChange change)
    (h : match change s with
      | .ok (item, s') => command.Contract s.find? (.ok (.item item)) s'.find?
      | .error e => command.Contract s.find? (.error e) s.find?) : m.Keeps s command := by
  constructor <;> rw [hrun, outcome_map, outcome_ofChange]
  · cases hchange : change s with
    | error e => rwa [hchange] at h
    | ok result => rwa [hchange] at h
  · cases change s with
    | error e => exact fun _ _ => rfl
    | ok result => exact nofun

theorem keeps_of_reading {α : Type} {command : Command} {answer : α → Answer}
    {reading : Store → Result α}
    (hrun : command.run m.backend = answer <$> ofReading reading)
    (h : command.Contract s.find? (answer <$> reading s) s.find?) : m.Keeps s command := by
  constructor <;> rw [hrun, outcome_map, outcome_ofReading]
  · exact h
  · exact fun _ _ => rfl

theorem keeps_create (container partition : String) (item : Item) :
    m.Keeps s (.create container partition item) := by
  refine m.keeps_of_change s rfl ?_
  obtain ⟨id, hid, hfree, hcreate⟩ | ⟨hrefused, e, hcreate⟩ :=
    Store.create_cases m.stamp container partition item s
  · rw [hcreate]
    refine ⟨iff_of_true rfl ⟨id, hid, hfree⟩, fun a ha => ?_⟩
    cases ha
    exact ⟨id, _, hid, Item.enters_stamped hid fun _ _ => rfl, rfl, s.find?_put_eq ..⟩
  · rw [hcreate]
    refine ⟨iff_of_false Bool.false_ne_true hrefused, fun a ha => ?_⟩
    cases ha

theorem keeps_read (container id partition : String) : m.Keeps s (.read container id partition) := by
  refine m.keeps_of_reading s rfl ?_
  rw [Store.read, Command.Contract]
  cases s.find? container ⟨partition, id⟩ with
  | none =>
    refine ⟨iff_of_false Bool.false_ne_true Bool.false_ne_true, fun a ha => ?_, rfl⟩
    cases ha
  | some entry =>
    refine ⟨iff_of_true rfl rfl, fun a ha => ?_, rfl⟩
    cases ha
    exact ⟨entry, rfl, rfl⟩

theorem keeps_replace (container id partition : String) (item : Item) :
    m.Keeps s (.replace container id partition item) := by
  refine m.keeps_of_change s rfl ?_
  simp only [Store.replace, Command.Contract]
  cases s.find? container ⟨partition, id⟩ with
  | none =>
    refine ⟨iff_of_false Bool.false_ne_true Bool.false_ne_true, fun a ha => ?_⟩
    cases ha
  | some old =>
    refine ⟨iff_of_true rfl rfl, fun a ha => ?_⟩
    cases ha
    have hid : (item.insert Reserved.id (.str id)).get? Reserved.id = some (.str id) := by
      rw [OrderedMap.get?_insert, if_pos rfl]
    refine ⟨_, Item.enters_stamped (Item.get?_id_iff.1 hid) fun name hne => ?_, rfl, s.find?_put_eq ..⟩
    rw [OrderedMap.get?_insert, if_neg hne]

theorem keeps_delete (container id partition : String) :
    m.Keeps s (.delete container id partition) := by
  refine m.keeps_of_change s rfl ?_
  simp only [Store.delete, Command.Contract]
  cases s.find? container ⟨partition, id⟩ with
  | none =>
    refine ⟨iff_of_false Bool.false_ne_true Bool.false_ne_true, fun a ha => ?_⟩
    cases ha
  | some old =>
    refine ⟨iff_of_true rfl rfl, fun a ha => ?_⟩
    cases ha
    exact ⟨old, rfl, rfl, s.find?_remove_eq ..⟩

/-- **Every call keeps its contract, on any store.** -/
theorem keeps (command : Command) : m.Keeps s command := by
  cases command with
  | create container partition item => exact m.keeps_create s container partition item
  | read container id partition => exact m.keeps_read s container id partition
  | readMany container keys => exact m.keeps_of_reading s rfl ⟨rfl, rfl⟩
  | replace container id partition item => exact m.keeps_replace s container id partition item
  | delete container id partition => exact m.keeps_delete s container id partition
  | query container q token => exact m.keeps_of_reading s rfl (Eq.refl s.find?)

end Memory

/-! ### Runs -/

theorem Table.sound_empty : Table.Sound (Store.find? {}) := by
  intro container key item h
  rw [show Store.find? {} container key = none from rfl] at h
  cases h

theorem Table.Sound.set {t : Table} (ht : t.Sound) {container : String} {key : ItemKey}
    {entry : Option Item} (hentry : ∀ item, entry = some item → item.IsEntry key.id) :
    (t.set container key entry).Sound := by
  intro other key' item hitem
  unfold Table.set at hitem
  split at hitem
  · next hkey => exact hkey.2 ▸ hentry item hitem
  · exact ht other key' item hitem

/-- A call that comes out leaves a sound table sound. -/
theorem Command.Contract.sound {command : Command} {t t' : Table} {a : Answer}
    (h : command.Contract t (.ok a) t') (ht : t.Sound) : t'.Sound := by
  cases command with
  | create container partition item =>
    obtain ⟨id, entry, -, hentry, -, rfl⟩ := h.2 a rfl
    refine ht.set fun item hitem => ?_
    cases hitem
    exact hentry.toIsEntry
  | read => exact h.2.2 ▸ ht
  | readMany => exact h.2 ▸ ht
  | replace container id partition item =>
    obtain ⟨entry, hentry, -, rfl⟩ := h.2 a rfl
    refine ht.set fun item hitem => ?_
    cases hitem
    exact hentry.toIsEntry
  | delete =>
    obtain ⟨entry, -, -, rfl⟩ := h.2 a rfl
    exact ht.set nofun
  | query => exact Eq.symm h ▸ ht

namespace Memory
variable (m : Memory)

theorem sound_run {s : Store} (hs : Table.Sound s.find?) (command : Command) :
    Table.Sound (outcome (command.run m.backend) s).2.find? := by
  obtain ⟨hcontract, hunchanged⟩ := m.keeps s command
  cases hanswer : (outcome (command.run m.backend) s).1 with
  | error e => exact (hunchanged e hanswer).symm ▸ hs
  | ok a =>
    rw [hanswer] at hcontract
    exact hcontract.sound hs

theorem sound_after {s : Store} (hs : Table.Sound s.find?) (commands : List Command) :
    Table.Sound (m.backend.after commands s).find? := by
  induction commands generalizing s with
  | nil => exact hs
  | cons command rest ih => exact ih (m.sound_run hs command)

/-- **A backend in memory is a table of items.** After any calls on an empty one, every entry has the id
that it is filed under and all that is stamped on a write, and whatever call comes next keeps its
contract and changes nothing if it fails. -/
theorem refines_table (commands : List Command) :
    Table.Sound (m.backend.after commands {}).find? ∧
      ∀ command, m.Keeps (m.backend.after commands {}) command :=
  ⟨m.sound_after Table.sound_empty commands, m.keeps _⟩

/-- An item is filed, filed again, replaced by one of another id and time, and looked for elsewhere. -/
def refilingCalls : List Command := [
  .create "items" "p" (.ofList [("id", .str "a"), ("count", .int 1)]),
  .create "items" "p" (.ofList [("id", .str "a"), ("count", .int 2)]),
  .replace "items" "a" "p" (.ofList [("id", .str "b"), ("_ts", .int 0)]),
  .delete "items" "a" "q"]

theorem refines_table_refiled :
    let s := (Memory.backend {}).after refilingCalls {}
    (∃ item, s.find? "items" ⟨"p", "a"⟩ = some item ∧ item.IsEntry "a") ∧
    (outcome (Command.run (Memory.backend {}) (.delete "items" "a" "p")) s).1.isOk = true := by
  intro s
  obtain ⟨hsound, hcalls⟩ := refines_table {} refilingCalls
  have hthere : (s.find? "items" ⟨"p", "a"⟩).isSome = true := by decide +kernel
  obtain ⟨item, hitem⟩ := Option.isSome_iff_exists.1 hthere
  obtain ⟨hdelete, -⟩ := (hcalls (.delete "items" "a" "p")).contract
  exact ⟨⟨item, hitem, hsound "items" ⟨"p", "a"⟩ item hitem⟩, hdelete.2 hthere⟩

end Memory
end DocumentStore
