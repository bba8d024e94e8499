import DocumentStore.Proofs.Service.DeletionByValue
import DocumentStore.Proofs.Service.Revision
import Mathlib.Data.Bool.Basic
import Mathlib.Logic.Function.Basic

/-! Updates of one item by several hands.

A request makes its calls one by one, and between them other requests make theirs (`Interleaved`). An
update files a revision of the item that it has read, so it keeps what others have filed before it reads
and writes over what they file afterwards. Of two updates of different attributes both count if one is
through with its calls before the other begins, and the last one alone counts otherwise
(`find?_of_interleaved_updates`). -/
namespace DocumentStore
open DocumentStore.Action

/-- A request as its calls to the backend: what a call yields decides how the request goes on. -/
inductive Course (α : Type) : Type 1 where
  | done (result : Result α)
  | call {β : Type} (step : Action β) (next : β → Course α)

namespace Course

/-- All calls, one after the other. -/
def run : Course α → Action α
  | done result => liftM result
  | call step next => do (next (← step)).run

/-- One call: how the course goes on, and the store that the call leaves. -/
def turn : Course α → Store → Option (Course α × Store)
  | done _, _ => none
  | call step next, s =>
    match outcome step s with
    | (.ok x, s') => some (next x, s')
    | (.error e, s') => some (done (.error e), s')

theorem turn_call {β : Type} {step : Action β} {next : β → Course α} {x : β} {s s' : Store}
    (h : outcome step s = (.ok x, s')) : (call step next).turn s = some (next x, s') := by
  rw [turn, h]

/-- A turn leaves to run what there was to run. -/
theorem outcome_run_of_turn {c c' : Course α} {s s' : Store} (h : c.turn s = some (c', s')) :
    outcome c.run s = outcome c'.run s' := by
  cases c with
  | done result => cases h
  | call step next =>
    rw [run, outcome_bind]
    rw [turn] at h
    cases hstep : outcome step s with
    | mk r s₁ =>
      rw [hstep] at h
      cases r with
      | error e =>
        cases h
        rfl
      | ok x =>
        cases h
        rfl

end Course

/-- Courses take turns on one store until all of them are done. -/
inductive Interleaved [DecidableEq ι] :
    List ι → (ι → Course α) → Store → (ι → Result α) → Store → Prop
  | done {courses : ι → Course α} {s : Store} {results : ι → Result α}
    (hdone : ∀ i, courses i = .done (results i)) : Interleaved [] courses s results s
  | turn {turns : List ι} {courses : ι → Course α} {s s₁ s' : Store} {results : ι → Result α} {i : ι}
    {c : Course α} (hturn : (courses i).turn s = some (c, s₁))
    (hrest : Interleaved turns (Function.update courses i c) s₁ results s') :
    Interleaved (i :: turns) courses s results s'

namespace Interleaved

variable {turns : List Bool} {courses : Bool → Course α} {s s' : Store} {results : Bool → Result α}

/-- A course that nobody else takes turns with runs as a whole. -/
theorem outcome_run {turns : List Unit} {courses : Unit → Course α} {results : Unit → Result α}
    (h : Interleaved turns courses s results s') :
    outcome (courses ()).run s = (results (), s') := by
  induction h with
  | done hdone =>
    rw [hdone]
    rfl
  | turn hturn _ ih =>
    rw [Course.outcome_run_of_turn hturn, ← ih, Function.update_self]

theorem of_done (h : Interleaved turns courses s results s')
    (hdone : ∀ i, ∃ result, courses i = .done result) : turns = [] ∧ s' = s := by
  cases h with
  | done _ => exact ⟨rfl, rfl⟩
  | @turn _ _ _ _ _ _ i _ hturn _ =>
    obtain ⟨result, hresult⟩ := hdone i
    rw [hresult] at hturn
    cases hturn

/-- Two courses are both done, or one of them takes a turn, which leaves the other as it is. -/
theorem first (h : Interleaved turns courses s results s') :
    (turns = [] ∧ s' = s ∧ ∀ i, courses i = .done (results i)) ∨
      ∃ i rest s₁ courses', turns = i :: rest ∧
        (courses i).turn s = some (courses' i, s₁) ∧ courses' (!i) = courses (!i) ∧
        Interleaved rest courses' s₁ results s' := by
  cases h with
  | done hdone => exact .inl ⟨rfl, rfl, hdone⟩
  | @turn rest _ _ s₁ _ _ i c hturn hrest =>
    refine .inr ⟨i, rest, s₁, _, rfl, ?_, ?_, hrest⟩
    · rw [Function.update_self]
      exact hturn
    · exact Function.update_of_ne (Bool.self_ne_not i).symm ..

end Interleaved

/-- The item has all attributes of another, with the same values. -/
def Item.Carries (item changes : Item) : Prop :=
  ∀ name v, changes.get? name = some v → item.get? name = some v

namespace Service

/-- What is left of an update that has read the item: it files the revision of what it has read. -/
def filing (s : Service) (schema : Schema) (container id partition : String) (updates : Item)
    (returned : ReturnValue) (seen : Item) : Course Update :=
  .call (s.backend.replace container id partition (Item.revised schema.aliases updates seen))
    fun new =>
      .done (.ok (returned.report (schema.external s.hashing seen) (schema.external s.hashing new)))

/-- An update as its calls to the backend: behind the checks it reads the item and files a revision. -/
def updateCourse (s : Service) (container id partition : String) (updates : Item)
    (returned : ReturnValue) : Course Update :=
  match Checks.id id >>= fun _ => s.schema container .update with
  | .error e => .done (.error e)
  | .ok schema =>
    .call (s.backend.read container id partition)
      (s.filing schema container id partition updates returned)

/-- The course of an update, run as a whole, is the update. -/
theorem run_updateCourse (s : Service) (container id partition : String) (updates : Item)
    (returned : ReturnValue) :
    (s.updateCourse container id partition updates returned).run =
      s.update container id partition updates returned := by
  unfold updateCourse update revise
  cases Checks.id id with
  | error e => rfl
  | ok =>
    cases s.schema container .update with
    | error e => rfl
    | ok schema =>
      simp only [bind_assoc, pure_bind]
      rfl

/-- An update that nobody else takes turns with is the update. -/
theorem outcome_update_of_interleaved {s : Service} {container id partition : String} {updates : Item}
    {returned : ReturnValue} {turns : List Unit} {store store' : Store}
    {results : Unit → Result Update}
    (h : Interleaved turns (fun _ => s.updateCourse container id partition updates returned) store
      results store') :
    outcome (s.update container id partition updates returned) store = (results (), store') := by
  rw [← run_updateCourse]
  exact h.outcome_run

/-! ### What is filed -/

variable {m : Memory} {registry : Registry} {hashing : HashOrder} {schema : Schema}
  {container id partition : String} {s s' : Store} {old : Item}

/-- Behind checks that pass an update begins by reading the item. -/
theorem updateCourse_eq (hid : Checks.id id = .ok ())
    (hget : registry.schemas.get? container = some schema) (updates : Item) (returned : ReturnValue) :
    (⟨m.backend, registry, hashing⟩ : Service).updateCourse container id partition updates returned =
      .call (m.backend.read container id partition)
        ((⟨m.backend, registry, hashing⟩ : Service).filing schema container id partition updates returned) := by
  have hcheck : (Checks.id id >>= fun _ =>
      (⟨m.backend, registry, hashing⟩ : Service).schema container .update) = .ok schema := by
    rw [hid]
    exact Registry.resolve_eq_ok_iff.2 hget
  rw [updateCourse, hcheck]

theorem turn_updateCourse (hid : Checks.id id = .ok ())
    (hget : registry.schemas.get? container = some schema)
    (hfound : s.find? container ⟨partition, id⟩ = some old) (updates : Item)
    (returned : ReturnValue) :
    ((⟨m.backend, registry, hashing⟩ : Service).updateCourse container id partition updates returned).turn s =
      some ((⟨m.backend, registry, hashing⟩ : Service).filing schema container id partition updates returned
        old, s) := by
  have hread : outcome (m.backend.read container id partition) s = (.ok old, s) := by
    show (Store.read container id partition s, s) = _
    rw [Store.read, hfound]
  rw [updateCourse_eq hid hget]
  exact Course.turn_call hread

/-- The item is what an update files that has read another one. -/
def Filed (m : Memory) (schema : Schema) (container id : String) (updates seen item : Item) : Prop :=
  ∃ s, item = refiled m s container id (Item.revised schema.aliases updates seen)

/-- Filing a revision puts it in place of whatever has come to be under the key. -/
theorem turn_filing {current : Item} (hfound : s.find? container ⟨partition, id⟩ = some current)
    (updates : Item) (returned : ReturnValue) (seen : Item) : ∃ update s₁ new,
    ((⟨m.backend, registry, hashing⟩ : Service).filing schema container id partition updates returned seen).turn
        s = some (.done (.ok update), s₁) ∧
      s₁.find? container ⟨partition, id⟩ = some new ∧
      Filed m schema container id updates seen new := by
  have hreplace : outcome (m.backend.replace container id partition
      (Item.revised schema.aliases updates seen)) s =
        (.ok (refiled m s container id (Item.revised schema.aliases updates seen)),
          s.put container ⟨partition, id⟩
            (refiled m s container id (Item.revised schema.aliases updates seen))) := by
    show outcome (.ofChange (Store.replace m.stamp container id partition _)) s = _
    rw [outcome_ofChange, Store.replace, hfound]
    rfl
  refine ⟨_, _, _, Course.turn_call hreplace, ?_, s, rfl⟩
  rw [Store.find?_put, if_pos ⟨rfl, rfl⟩]

variable {draw : Bool → HashOrder} {updates : Bool → Item} {returned : Bool → ReturnValue} {turns : List Bool}
  {courses : Bool → Course Update} {results : Bool → Result Update} {i : Bool}

/-- An update that is left alone with what it has read files its revision. -/
theorem filed_of_filing {current seen : Item} (h : Interleaved turns courses s results s')
    (hfound : s.find? container ⟨partition, id⟩ = some current)
    (hother : ∃ result, courses (!i) = .done result)
    (hcourse : courses i = (⟨m.backend, registry, hashing⟩ : Service).filing schema container id partition
      (updates i) (returned i) seen) :
    turns = [i] ∧ ∃ final, s'.find? container ⟨partition, id⟩ = some final ∧
      Filed m schema container id (updates i) seen final := by
  obtain ⟨other, hother⟩ := hother
  obtain ⟨-, -, hdone⟩ | ⟨j, rest, s₁, courses', rfl, hturn, hsame, hrest⟩ := h.first
  · cases hcourse.symm.trans (hdone i)
  · obtain rfl | rfl := Bool.eq_or_eq_not j i
    · obtain ⟨update, s₂, final, hfiling, hfinal, hfiled⟩ :=
        turn_filing hfound (updates j) (returned j) seen
      rw [hcourse, hfiling] at hturn
      obtain ⟨hcourse', rfl⟩ := Prod.mk.inj (Option.some.inj hturn)
      obtain ⟨rfl, rfl⟩ := hrest.of_done fun k => by
        obtain rfl | rfl := Bool.eq_or_eq_not k j
        · exact ⟨_, hcourse'.symm⟩
        · exact ⟨_, hsame.trans hother⟩
      exact ⟨rfl, final, hfinal, hfiled⟩
    · rw [hother] at hturn
      cases hturn

/-- Of two updates that have read the item, the one that files last has its way. -/
theorem filed_of_filings {current : Item} {seen : Bool → Item}
    (h : Interleaved turns courses s results s')
    (hfound : s.find? container ⟨partition, id⟩ = some current)
    (hcourses : ∀ i, courses i = (⟨m.backend, registry, draw i⟩ : Service).filing schema container id
      partition (updates i) (returned i) (seen i)) :
    ∃ last, turns = [!last, last] ∧ ∃ final, s'.find? container ⟨partition, id⟩ = some final ∧
      Filed m schema container id (updates last) (seen last) final := by
  obtain ⟨-, -, hdone⟩ | ⟨j, rest, s₁, courses', rfl, hturn, hsame, hrest⟩ := h.first
  · cases (hcourses true).symm.trans (hdone true)
  · obtain ⟨update, s₂, first, hfiling, hfirst, -⟩ :=
      turn_filing hfound (updates j) (returned j) (seen j)
    rw [hcourses, hfiling] at hturn
    obtain ⟨hcourse', rfl⟩ := Prod.mk.inj (Option.some.inj hturn)
    obtain ⟨rfl, hfinal⟩ := filed_of_filing hrest hfirst
      ⟨.ok update, by rw [Bool.not_not, hcourse']⟩ (hsame.trans (hcourses !j))
    exact ⟨!j, by rw [Bool.not_not], hfinal⟩

section Reading
variable (hid : Checks.id id = .ok ()) (hget : registry.schemas.get? container = some schema)
include hid hget

/-- An update that is left alone files its revision of the item that is there. -/
theorem filed_of_updateCourse {current : Item} (h : Interleaved turns courses s results s')
    (hfound : s.find? container ⟨partition, id⟩ = some current)
    (hother : ∃ result, courses (!i) = .done result)
    (hcourse : courses i = (⟨m.backend, registry, hashing⟩ : Service).updateCourse container id partition
      (updates i) (returned i)) :
    turns = [i, i] ∧ ∃ final, s'.find? container ⟨partition, id⟩ = some final ∧
      Filed m schema container id (updates i) current final := by
  obtain ⟨other, hother⟩ := hother
  obtain ⟨-, -, hdone⟩ | ⟨j, rest, s₁, courses', rfl, hturn, hsame, hrest⟩ := h.first
  · cases (updateCourse_eq hid hget _ _).symm.trans (hcourse.symm.trans (hdone i))
  · obtain rfl | rfl := Bool.eq_or_eq_not j i
    · rw [hcourse, turn_updateCourse hid hget hfound] at hturn
      obtain ⟨hcourse', rfl⟩ := Prod.mk.inj (Option.some.inj hturn)
      obtain ⟨rfl, hfinal⟩ :=
        filed_of_filing hrest hfound ⟨other, hsame.trans hother⟩ hcourse'.symm
      exact ⟨rfl, hfinal⟩
    · rw [hother] at hturn
      cases hturn

/-- With one update that has read the item and one that has yet to, either the first files before the
second reads, or both have read the same. -/
theorem filed_of_filing_of_updateCourse (h : Interleaved turns courses s results s')
    (hfound : s.find? container ⟨partition, id⟩ = some old)
    (hfirst : courses i = (⟨m.backend, registry, draw i⟩ : Service).filing schema container id partition
      (updates i) (returned i) old)
    (hsecond : courses (!i) = (⟨m.backend, registry, draw !i⟩ : Service).updateCourse container id partition
      (updates !i) (returned !i)) :
    (turns = [i, !i, !i] ∧ ∃ first final, s'.find? container ⟨partition, id⟩ = some final ∧
      Filed m schema container id (updates i) old first ∧
      Filed m schema container id (updates !i) first final) ∨
    ∃ last, turns = [!i, !last, last] ∧ ∃ final, s'.find? container ⟨partition, id⟩ = some final ∧
      Filed m schema container id (updates last) old final := by
  obtain ⟨-, -, hdone⟩ | ⟨j, rest, s₁, courses', rfl, hturn, hsame, hrest⟩ := h.first
  · cases hfirst.symm.trans (hdone i)
  · obtain rfl | rfl := Bool.eq_or_eq_not j i
    · obtain ⟨update, s₂, first, hfiling, hnew, hfiled⟩ :=
        turn_filing hfound (updates j) (returned j) old
      rw [hfirst, hfiling] at hturn
      obtain ⟨hcourse', rfl⟩ := Prod.mk.inj (Option.some.inj hturn)
      obtain ⟨rfl, final, hfinal, hlast⟩ := filed_of_updateCourse hid hget hrest hnew
        ⟨.ok update, by rw [Bool.not_not, hcourse']⟩ (hsame.trans hsecond)
      exact .inl ⟨rfl, first, final, hfinal, hfiled, hlast⟩
    · rw [hsecond, turn_updateCourse hid hget hfound] at hturn
      obtain ⟨hcourse', rfl⟩ := Prod.mk.inj (Option.some.inj hturn)
      rw [Bool.not_not] at hsame
      have hboth : ∀ k, courses' k = (⟨m.backend, registry, draw k⟩ : Service).filing schema container id
          partition (updates k) (returned k) old := by
        intro k
        obtain rfl | rfl := Bool.eq_or_eq_not k i
        · exact hsame.trans hfirst
        · exact hcourse'.symm
      obtain ⟨last, rfl, hfinal⟩ := filed_of_filings hrest hfound hboth
      exact .inr ⟨last, rfl, hfinal⟩

/-- All interleavings of two updates of an item, and what is filed last in each. -/
theorem filed_of_updateCourses (h : Interleaved turns courses s results s')
    (hfound : s.find? container ⟨partition, id⟩ = some old)
    (hcourses : ∀ i, courses i = (⟨m.backend, registry, draw i⟩ : Service).updateCourse container id partition
      (updates i) (returned i)) :
    ∃ last final, s'.find? container ⟨partition, id⟩ = some final ∧
      ((turns = [!last, !last, last, last] ∧ ∃ first,
          Filed m schema container id (updates !last) old first ∧
          Filed m schema container id (updates last) first final) ∨
        (∃ i, turns = [i, !i, !last, last]) ∧
          Filed m schema container id (updates last) old final) := by
  obtain ⟨-, -, hdone⟩ | ⟨j, rest, s₁, courses', rfl, hturn, hsame, hrest⟩ := h.first
  · cases (updateCourse_eq hid hget _ _).symm.trans ((hcourses true).symm.trans (hdone true))
  · rw [hcourses, turn_updateCourse hid hget hfound] at hturn
    obtain ⟨hcourse', rfl⟩ := Prod.mk.inj (Option.some.inj hturn)
    obtain ⟨rfl, first, final, hfinal, hfirst, hlast⟩ | ⟨last, rfl, final, hfinal, hlast⟩ :=
      filed_of_filing_of_updateCourse hid hget hrest hfound hcourse'.symm (hsame.trans (hcourses !j))
    · refine ⟨!j, final, hfinal, .inl ⟨?_, first, ?_, hlast⟩⟩
      · rw [Bool.not_not]
      · rw [Bool.not_not]
        exact hfirst
    · exact ⟨last, final, hfinal, .inr ⟨⟨j, rfl⟩, hlast⟩⟩

end Reading

/-- What an update sets counts, and else what it has read, save for what is set in any item filed. -/
theorem Filed.get?_eq {updates seen item : Item} (h : Filed m schema container id updates seen item)
    {name : String} (hid : name ≠ Reserved.id) (hsystem : name ∉ Reserved.systemFields) :
    item.get? name = ((schema.aliases.storedItem updates).get? name).or (seen.get? name) := by
  obtain ⟨s, rfl⟩ := h
  rw [get?_refiled hsystem, if_neg hid, Item.get?_revised hsystem]

/-- The update sets neither the id nor a system field, as it is stored. -/
def SetsOwn (schema : Schema) (updates : Item) : Prop :=
  ∀ name v, (schema.aliases.storedItem updates).get? name = some v →
    name ≠ Reserved.id ∧ name ∉ Reserved.systemFields

theorem Filed.carries {updates seen item : Item}
    (h : Filed m schema container id updates seen item) (hown : SetsOwn schema updates) :
    item.Carries (schema.aliases.storedItem updates) := by
  intro name v hset
  obtain ⟨hid, hsystem⟩ := hown name v hset
  rw [h.get?_eq hid hsystem, hset, Option.some_or]

/-- What others set and the update does not is as it has been read. -/
theorem Filed.get?_of_others {updates others seen item : Item}
    (h : Filed m schema container id updates seen item) (hown : SetsOwn schema others) {name : String}
    {v : Json.Value} (hset : (schema.aliases.storedItem others).get? name = some v)
    (hnone : (schema.aliases.storedItem updates).get? name = none) :
    item.get? name = seen.get? name := by
  obtain ⟨hid, hsystem⟩ := hown name v hset
  rw [h.get?_eq hid hsystem, hnone, Option.none_or]

/-- An update that has come out had an id to begin with. -/
theorem checkId_of_interleaved
    (h : Interleaved turns (fun i => (⟨m.backend, registry, draw i⟩ : Service).updateCourse container id
      partition (updates i) (returned i)) s results s')
    (hresults : ∀ i, ∃ update, results i = .ok update) : Checks.id id = .ok () := by
  cases hcheck : Checks.id id with
  | ok => rfl
  | error e =>
    have hrefused (i : Bool) : (⟨m.backend, registry, draw i⟩ : Service).updateCourse container id partition
        (updates i) (returned i) = .done (.error e) := by
      rw [updateCourse, hcheck]
      rfl
    obtain ⟨-, -, hdone⟩ | ⟨j, _, _, _, -, hturn, -⟩ := h.first
    · obtain ⟨update, hupdate⟩ := hresults true
      have hresult := (hrefused true).symm.trans (hdone true)
      rw [hupdate] at hresult
      cases hresult
    · rw [hrefused] at hturn
      cases hturn

/-- **Of two updates of an item that set different attributes, both count if one has filed its revision
before the other reads the item. However else their calls are interleaved, the one that files last
counts, and what the other sets is as it was before.** -/
theorem find?_of_interleaved_updates {draw : Bool → HashOrder} {updates : Bool → Item}
    {returned : Bool → ReturnValue} {turns : List Bool} {results : Bool → Result Update}
    (hget : registry.schemas.get? container = some schema)
    (hfound : s.find? container ⟨partition, id⟩ = some old)
    (hown : ∀ i, SetsOwn schema (updates i))
    (hdisjoint : ∀ i name v, (schema.aliases.storedItem (updates i)).get? name = some v →
      (schema.aliases.storedItem (updates !i)).get? name = none)
    (h : Interleaved turns (fun i => (⟨m.backend, registry, draw i⟩ : Service).updateCourse container id
      partition (updates i) (returned i)) s results s')
    (hresults : ∀ i, ∃ update, results i = .ok update) :
    ∃ last final, turns.getLast? = some last ∧ s'.find? container ⟨partition, id⟩ = some final ∧
      final.Carries (schema.aliases.storedItem (updates last)) ∧
      (turns = [!last, !last, last, last] →
        final.Carries (schema.aliases.storedItem (updates !last))) ∧
      (turns ≠ [!last, !last, last, last] → ∀ name v,
        (schema.aliases.storedItem (updates !last)).get? name = some v →
          final.get? name = old.get? name) := by
  have hid := checkId_of_interleaved h hresults
  have hfree (i : Bool) (name : String) (v : Json.Value)
      (hset : (schema.aliases.storedItem (updates !i)).get? name = some v) :
      (schema.aliases.storedItem (updates i)).get? name = none := by
    have hnone := hdisjoint (!i) name v hset
    rw [Bool.not_not] at hnone
    exact hnone
  obtain ⟨last, final, hfinal, ⟨rfl, first, hfirst, hlast⟩ | ⟨⟨i, rfl⟩, hlast⟩⟩ :=
    filed_of_updateCourses hid hget h hfound fun _ => rfl
  · refine ⟨last, final, rfl, hfinal, hlast.carries (hown last), fun _ name v hset => ?_,
      fun hturns => absurd rfl hturns⟩
    rw [hlast.get?_of_others (hown !last) hset (hfree last name v hset)]
    exact hfirst.carries (hown !last) name v hset
  · refine ⟨last, final, rfl, hfinal, hlast.carries (hown last), fun hturns => ?_,
      fun _ name v hset => hlast.get?_of_others (hown !last) hset (hfree last name v hset)⟩
    -- Both read before either files, so the first two turns differ.
    simp at hturns

/-- An item with two counters. -/
def counters : Item :=
  .ofList [("id", .str "a"), ("pk", .str "p"), ("x", .int 0), ("y", .int 0)]

def countersStore : Store := Store.put {} "items" ⟨"p", "a"⟩ counters

def counterName : Bool → String
  | false => "x"
  | true => "y"

/-- Sets one of the counters. -/
def bump (i : Bool) : Item := .ofList [(counterName i, .int 1)]

def bumpCourse (i : Bool) : Course Update := itemsService.updateCourse "items" "a" "p" (bump i) .none

def bumpFiling (i : Bool) (seen : Item) : Course Update :=
  itemsService.filing items "items" "a" "p" (bump i) .none seen

theorem get?_storedItem_bump (i : Bool) (name : String) :
    (items.aliases.storedItem (bump i)).get? name =
      if name = counterName i then some (.int 1) else none := rfl

theorem setsOwn_bump (i : Bool) : SetsOwn items (bump i) := by
  intro name v hset
  rw [get?_storedItem_bump] at hset
  split at hset
  · next hname =>
    rw [hname]
    cases i <;> decide
  · cases hset

theorem bump_disjoint (i : Bool) (name : String) (v : Json.Value)
    (hset : (items.aliases.storedItem (bump i)).get? name = some v) :
    (items.aliases.storedItem (bump !i)).get? name = none := by
  rw [get?_storedItem_bump] at hset ⊢
  split at hset
  · next hname =>
    rw [if_neg]
    rw [hname]
    cases i <;> decide
  · cases hset

theorem find?_countersStore : countersStore.find? "items" ⟨"p", "a"⟩ = some counters := by
  rw [countersStore, Store.find?_put, if_pos ⟨rfl, rfl⟩]

theorem turn_bumpCourse (hfound : s.find? "items" ⟨"p", "a"⟩ = some old) (i : Bool) :
    (bumpCourse i).turn s = some (bumpFiling i old, s) :=
  turn_updateCourse (by decide +kernel) get?_items hfound (bump i) .none

theorem turn_bumpFiling {current : Item} (hfound : s.find? "items" ⟨"p", "a"⟩ = some current) (i : Bool)
    (seen : Item) : ∃ update s₁ new, (bumpFiling i seen).turn s = some (.done (.ok update), s₁) ∧
      s₁.find? "items" ⟨"p", "a"⟩ = some new ∧ Filed {} items "items" "a" (bump i) seen new :=
  turn_filing hfound (bump i) .none seen

/-- One after the other, both updates count. -/
theorem exists_interleaved_bumps : ∃ results s' final,
    Interleaved [false, false, true, true] bumpCourse countersStore results s' ∧
    (∀ i, ∃ update, results i = .ok update) ∧
    s'.find? "items" ⟨"p", "a"⟩ = some final ∧
    final.get? "x" = some (.int 1) ∧ final.get? "y" = some (.int 1) := by
  obtain ⟨first, s₁, new, hfile, hnew, -⟩ := turn_bumpFiling find?_countersStore false counters
  obtain ⟨second, s₂, -, hfile', -⟩ := turn_bumpFiling hnew true new
  have hturns : Interleaved [false, false, true, true] bumpCourse countersStore
      (fun i => .ok (cond i second first)) s₂ :=
    .turn (turn_bumpCourse find?_countersStore false) <| .turn hfile <|
      .turn (turn_bumpCourse hnew true) <| .turn hfile' <| .done fun i => by cases i <;> rfl
  have hresults : ∀ i, ∃ update, (.ok (cond i second first) : Result Update) = .ok update :=
    fun i => ⟨_, rfl⟩
  obtain ⟨last, final, hlast, hfinal, hcarries, hboth, -⟩ :=
    find?_of_interleaved_updates get?_items find?_countersStore setsOwn_bump bump_disjoint hturns
      hresults
  obtain rfl : true = last := Option.some.inj hlast
  exact ⟨_, s₂, final, hturns, hresults, hfinal, hboth rfl "x" (.int 1) rfl,
    hcarries "y" (.int 1) rfl⟩

/-- Where both have read the item before either has filed, the one that files last undoes what the other
has set, and both come out. -/
theorem exists_lost_update : ∃ results s' final,
    Interleaved [false, true, true, false] bumpCourse countersStore results s' ∧
    (∀ i, ∃ update, results i = .ok update) ∧
    (∀ i, SetsOwn items (bump i)) ∧
    (∀ i name v, (items.aliases.storedItem (bump i)).get? name = some v →
      (items.aliases.storedItem (bump !i)).get? name = none) ∧
    s'.find? "items" ⟨"p", "a"⟩ = some final ∧
    (items.aliases.storedItem (bump true)).get? "y" = some (.int 1) ∧
    final.get? "y" = some (.int 0) := by
  obtain ⟨second, s₁, new, hfile, hnew, -⟩ := turn_bumpFiling find?_countersStore true counters
  obtain ⟨first, s₂, final, hfile', hfinal, hfiled⟩ := turn_bumpFiling hnew false counters
  have hturns : Interleaved [false, true, true, false] bumpCourse countersStore
      (fun i => .ok (cond i second first)) s₂ :=
    .turn (turn_bumpCourse find?_countersStore false) <|
      .turn (turn_bumpCourse find?_countersStore true) <| .turn hfile <| .turn hfile' <|
        .done fun i => by cases i <;> rfl
  refine ⟨_, s₂, final, hturns, fun i => ⟨_, rfl⟩, setsOwn_bump, bump_disjoint, hfinal, rfl, ?_⟩
  rw [hfiled.get?_eq (by decide) (by decide)]
  rfl

end Service
end DocumentStore
