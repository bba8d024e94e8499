import DocumentStore.Proofs.Service.WayBack
import DocumentStore.Proofs.Store.Comparing
import DocumentStore.Service.Search

/-! What a search yields, whatever the pages it is read on.

The items of a partition that criteria keep do not depend on what else a search asks for
(`Service.hits`). A search sorts them (`Schema.listed`), and shows a window of them, each cut down to some
fields (`Schema.shown`), on whatever pages it is read (`Service.outcome_find`). What whoever follows the
tokens of a query comes by is said in `Service.follows_query`: there a container has no more items than a
list may have. Of three items that are tangled a query may show the second before the first
(`Service.exists_page_out_of_order`). -/
namespace DocumentStore
open DocumentStore.Action

variable {m : Memory} {registry : Registry} {hashing hashing' : HashOrder} {container partition : String}
  {schema : Schema} {c : Criteria} {options : SearchOptions} {s : Store} {q : Query} {found : List Item}

/-- A stored item as a search for some fields shows it. -/
def Schema.shownItem (schema : Schema) (hashing : HashOrder) (fields : List String) (item : Item) : Item :=
  schema.external hashing
    (item.project ((fields.filter (!Query.isWildcard ·)).map schema.aliases.storedName))

/-- All items that a search finds, in the order that it yields them in. -/
def Schema.listed (schema : Schema) (sorter : Sorter) (sorting : Option Sorting) (found : List Item) :
    Result (List Item) :=
  sorter.sortBy (sorting.map fun sort => { sort with field := schema.aliases.storedName sort.field }) found

/-- What a search yields of the items it lists. -/
def Schema.shown (schema : Schema) (hashing : HashOrder) (options : SearchOptions) (listed : List Item) :
    List Item :=
  ((listed.drop options.offset).take options.window).map (schema.shownItem hashing options.fields)

/-- What a search and a count of one partition ask for, besides what they do with it. -/
def Query.ofPartition (schema : Schema) (partition : String) (c : Criteria) : Query where
  partitionValue := some partition
  filter := some (c.mapNames schema.aliases.storedName)

/-- The query of a search that can be asked for, as far as backends in memory look at it. -/
theorem Query.find_eq_ok {conditions : String}
    (h : Query.conditions schema.aliases (some c) = .ok conditions) (partition : String)
    (options : SearchOptions) (shelf : Shelf) :
    ∃ q, Query.find schema partition (some c) options = .ok q ∧ q.count = false ∧
      q.limit = some options.window ∧
      shelf.matching q = shelf.matching (.ofPartition schema partition c) ∧
      ∀ hashing sorter found,
        (fun results => (results.map (·.project q.projection)).map (schema.external hashing)) <$>
          q.arranged sorter found =
            schema.shown hashing options <$> schema.listed sorter options.sorting found := by
  unfold find inPartition
  rw [h]
  refine ⟨_, rfl, rfl, rfl, rfl, fun hashing sorter found => ?_⟩
  rw [Query.arranged]
  show _ <$> (schema.listed sorter options.sorting found >>= _) = _
  cases schema.listed sorter options.sorting found with
  | error e => rfl
  | ok listed => exact congrArg Except.ok (List.map_map ..)

namespace Service

/-- The schema of a container, and the items of a partition that criteria keep. -/
def hits (registry : Registry) (container partition : String) (c : Criteria) (s : Store) :
    Result (Schema × List Item) := do
  let schema ← registry.resolve container .query
  let _ ← Query.conditions schema.aliases (some c)
  return (schema, ← (s.shelf container).matching (.ofPartition schema partition c))

theorem window_le_of_limit (h : Checks.limit options.limit = .ok ()) :
    options.window ≤ Limits.maxLimit := by
  unfold SearchOptions.window
  cases hlimit : options.limit with
  | none => decide
  | some n =>
    rw [hlimit, Checks.limit] at h
    split at h
    · cases h
    · next hfew => exact Nat.le_of_not_lt hfew

/-- A search has no more results than it may ask for. -/
theorem length_results_le (h : Checks.limit options.limit = .ok ()) (hlimit : q.limit = some options.window)
    {results : List Item} (hresults : s.results m.sorter container q = .ok results) :
    results.length ≤ Word.signedEnd := by
  obtain ⟨found, -, harranged⟩ := Result.bind_eq_ok_iff.1 hresults
  obtain ⟨sorted, -, rfl⟩ := Query.arranged_eq_ok_iff.1 harranged
  rw [hlimit]
  calc (window q.skip (some options.window) sorted).length ≤ options.window := List.length_take_le ..
    _ ≤ Limits.maxLimit := window_le_of_limit h
    _ ≤ Word.signedEnd := by decide

/-- Whatever is made of the rows of a query that asks for the hits is made of the hits, or fails as they
do. -/
theorem outcome_of_hits (ask : Schema → Result Query) (use : Schema → List Item → α)
    (present : Schema → List Item → Result α)
    (herror : ∀ schema e, Query.conditions schema.aliases (some c) = .error e → ask schema = .error e)
    (hok : ∀ schema conditions, Query.conditions schema.aliases (some c) = .ok conditions →
      ∃ q, ask schema = .ok q ∧ outcome (do return use schema (← m.backend.rows container q)) s =
        ((s.shelf container).matching (.ofPartition schema partition c) >>= present schema, s)) :
    outcome (do
      let schema ← (⟨m.backend, registry, hashing⟩ : Service).schema container .query
      let query ← ask schema
      return use schema (← m.backend.rows container query)) s =
      ((do
        let (schema, found) ← hits registry container partition c s
        present schema found), s) := by
  rw [hits, bind_assoc]
  refine outcome_liftM_bind_of_reads fun schema _ => ?_
  rw [bind_assoc]
  cases hconditions : Query.conditions schema.aliases (some c) with
  | error e =>
    rw [herror schema e hconditions]
    rfl
  | ok conditions =>
    obtain ⟨q, hask, hrows⟩ := hok schema conditions hconditions
    rw [hask]
    refine Eq.trans hrows ?_
    show _ = (((s.shelf container).matching (.ofPartition schema partition c) >>= _) >>= _, s)
    rw [bind_assoc]
    rfl

/-- What a search comes to behind its checks. -/
theorem outcome_found (hlimit : Checks.limit options.limit = .ok ()) :
    outcome (do
      let schema ← (⟨m.backend, registry, hashing⟩ : Service).schema container .query
      let query ← Query.find schema partition (some c) options
      return (← m.backend.rows container query).map (schema.external hashing)) s =
      ((do
        let (schema, found) ← hits registry container partition c s
        schema.shown hashing options <$> schema.listed m.sorter options.sorting found), s) := by
  refine outcome_of_hits (fun schema => Query.find schema partition (some c) options)
    (fun schema rows => rows.map (schema.external hashing))
    (fun schema found => schema.shown hashing options <$> schema.listed m.sorter options.sorting found)
    (fun schema e herror => ?_) fun schema conditions hconditions => ?_
  · unfold Query.find Query.inPartition
    rw [herror]
    rfl
  · obtain ⟨q, hfind, hcount, hwindow, hmatching, hshown⟩ :=
      Query.find_eq_ok hconditions partition options (s.shelf container)
    have hrows : outcome (m.backend.rows container q) s = _ :=
      Memory.outcome_rows hcount fun _ hresults => length_results_le hlimit hwindow hresults
    refine ⟨q, hfind, (outcome_map (List.map (schema.external hashing)) _ s).trans ?_⟩
    rw [hrows, Store.results, hmatching]
    cases (s.shelf container).matching (.ofPartition schema partition c) with
    | error e => rfl
    | ok found =>
      refine Eq.trans ?_ (congrArg (·, s) (hshown hashing m.sorter found))
      show (_ <$> _ <$> q.arranged m.sorter found, s) = _
      cases q.arranged m.sorter found <;> rfl

/-- **What a search comes to.** It leaves the store as it is. -/
theorem outcome_find (criteria : Option Criteria) :
    outcome ((⟨m.backend, registry, hashing⟩ : Service).find container partition criteria options) s =
      ((do
        Checks.partition partition
        let c ← Checks.someCriteria criteria
        Checks.limit options.limit
        let (schema, found) ← hits registry container partition c s
        schema.shown hashing options <$> schema.listed m.sorter options.sorting found), s) := by
  refine outcome_liftM_bind_of_reads fun _ _ => ?_
  refine outcome_liftM_bind_of_reads fun c _ => ?_
  refine outcome_liftM_bind_of_reads fun _ hlimit => ?_
  exact outcome_found hlimit

/-- A search that comes out has passed its checks, and shows what it lists of its hits. -/
theorem of_outcome_find_eq_ok {rows : List Item}
    (h : (outcome ((⟨m.backend, registry, hashing⟩ : Service).find container partition (some c) options) s).1 =
      .ok rows) :
    Checks.partition partition = .ok () ∧ c.check = .ok () ∧ ∃ schema found listed,
      hits registry container partition c s = .ok (schema, found) ∧
      schema.listed m.sorter options.sorting found = .ok listed ∧ rows = schema.shown hashing options listed := by
  rw [outcome_find] at h
  obtain ⟨_, hpartition, h⟩ := Result.bind_eq_ok_iff.1 h
  obtain ⟨_, hsome, h⟩ := Result.bind_eq_ok_iff.1 h
  obtain ⟨_, hcheck, hsame⟩ := Result.bind_eq_ok_iff.1 hsome
  cases hsame
  obtain ⟨_, -, h⟩ := Result.bind_eq_ok_iff.1 h
  obtain ⟨⟨schema, found⟩, hhits, h⟩ := Result.bind_eq_ok_iff.1 h
  obtain ⟨listed, hlisted, rfl⟩ := Result.map_eq_ok_iff.1 h
  exact ⟨hpartition, hcheck, schema, found, listed, hhits, hlisted, rfl⟩

theorem of_hits_eq_ok (h : hits registry container partition c s = .ok (schema, found)) :
    registry.resolve container .query = .ok schema ∧
      (s.shelf container).matching (.ofPartition schema partition c) = .ok found := by
  obtain ⟨_, hresolved, h⟩ := Result.bind_eq_ok_iff.1 h
  obtain ⟨_, -, h⟩ := Result.bind_eq_ok_iff.1 h
  obtain ⟨_, hfound, h⟩ := Result.bind_eq_ok_iff.1 h
  cases h
  exact ⟨hresolved, hfound⟩

theorem shown_eq (h : schema.DrawsAlike hashing hashing') (options : SearchOptions) :
    schema.shown hashing' options = schema.shown hashing options := by
  unfold Schema.shown Schema.shownItem
  rw [h.external_eq]

/-- Searches of backends that sort alike yield the same, whatever the size of pages, in calls that show the
items of the container alike. -/
theorem outcome_find_eq {m' : Memory} (hsorter : m'.sorter = m.sorter)
    (hdraws : ∀ schema, registry.resolve container .query = .ok schema → schema.DrawsAlike hashing hashing')
    (criteria : Option Criteria) :
    outcome ((⟨m'.backend, registry, hashing'⟩ : Service).find container partition criteria options) s =
      outcome ((⟨m.backend, registry, hashing⟩ : Service).find container partition criteria options) s := by
  rw [outcome_find, outcome_find, hsorter]
  refine congrArg (·, s) (bind_congr fun _ => bind_congr fun c => bind_congr fun _ => ?_)
  refine Result.bind_congr fun (schema, found) hhits => ?_
  exact congrArg (· <$> _) (shown_eq (hdraws schema (of_hits_eq_ok hhits).1) options)

/-- Where no items that are found are tangled, a query sorts them, and in the one way that is stable. -/
theorem stablySorted_iff_of_untangled {sort : Sorting} {sorted : List Item}
    (hsorted : m.sorter.sortBy (some sort) found = .ok sorted)
    (huntangled : ∀ a ∈ found, ∀ b ∈ found, ∀ c ∈ found, ¬sort.Tangled a b c) (sorted' : List Item) :
    Sorting.StablySorted sort.order found sorted' ↔ sorted' = sorted := by
  have hconsistent := Sorting.consistent_iff.2 huntangled
  have hstable := Sorting.stablySorted_arrange hconsistent
  cases (Sorter.sortBy_of_consistent hconsistent).symm.trans hsorted
  exact ⟨fun h => h.unique hconsistent hstable, fun h => h ▸ hstable⟩

/-- **Following the tokens of a query ends. All pages but the last are full, and they hold the window that
the query asks for of the items it finds: in key order, or as they come sorted, which is the one way to sort
them stably unless some are tangled. Only then may the sort give up instead. What a search yields does not
depend on the size of pages.** -/
theorem follows_query (m : Memory) (hcount : q.count = false)
    (hlist : (s.shelf container).size ≤ Word.signedEnd)
    (hfound : (s.shelf container).matching q = .ok found) :
    found = ((s.shelf container).entries.filter q.finds).map Prod.snd ∧
    (∀ sorted, m.sorter.sortBy q.sorting found = .ok sorted →
      (∃ pages, (∀ pages', Follows (m.backend.query container q) s none pages' ↔ pages' = pages) ∧
        (∀ page ∈ pages.dropLast, page.items.length = (m.pageLength q).toNat) ∧
        pages.flatMap Page.items = (window q.skip q.limit sorted).map (·.project q.projection)) ∧
      sorted.Perm found ∧ (q.sorting = none → sorted = found) ∧
      ∀ sort, q.sorting = some sort →
        (∀ a ∈ found, ∀ b ∈ found, ∀ c ∈ found, ¬sort.Tangled a b c) →
        ∀ sorted', Sorting.StablySorted sort.order found sorted' ↔ sorted' = sorted) ∧
    (∀ e, m.sorter.sortBy q.sorting found = .error e →
      outcome (m.backend.query container q none) s = (.error (.panic .disorder), s) ∧
      ∃ sort, q.sorting = some sort ∧ ∃ a ∈ found, ∃ b ∈ found, ∃ c ∈ found, sort.Tangled a b c) ∧
    ∀ pageSize registry hashing hashing' searched partition criteria options,
      (∀ schema, registry.resolve searched .query = .ok schema → schema.DrawsAlike hashing hashing') →
      outcome ((⟨{ m with pageSize }.backend, registry, hashing'⟩ : Service).find searched partition criteria
          options) s =
        outcome ((⟨m.backend, registry, hashing⟩ : Service).find searched partition criteria options) s := by
  refine ⟨Shelf.matching_eq_filter hfound, fun sorted hsorted => ⟨?_, Sorter.perm_of_sortBy hsorted, ?_, ?_⟩,
    fun e herror => ?_, fun pageSize registry hashing hashing' searched partition criteria options hdraws => ?_⟩
  · have hresults : s.results m.sorter container q = .ok (window q.skip q.limit sorted) :=
      Result.bind_eq_ok_iff.2 ⟨found, hfound, Query.arranged_eq_ok_iff.2 ⟨sorted, hsorted, rfl⟩⟩
    obtain ⟨pages, hfollows, hhold, -⟩ := Memory.exists_follows_query (m := m) hcount hresults
      ((Store.length_results_le hresults).trans hlist)
    exact ⟨pages, fun pages' => ⟨fun h => h.unique hfollows, fun h => h ▸ hfollows⟩, hhold.full, hhold.items⟩
  · intro hsorting
    rw [hsorting] at hsorted
    exact (Except.ok.inj hsorted).symm
  · intro sort hsort huntangled
    exact stablySorted_iff_of_untangled (hsort ▸ hsorted) huntangled
  · obtain ⟨rfl, sort, hsort, htangled⟩ := Sorter.of_sortBy_eq_error herror
    have hresults : s.results m.sorter container q = .error (.panic .disorder) :=
      Result.bind_eq_error_iff.2 (.inr ⟨found, hfound, Result.bind_eq_error_iff.2 (.inl herror)⟩)
    refine ⟨congrArg (·, s) (Store.page_eq_error hcount hresults m.pageSize), sort, hsort, ?_⟩
    rw [Sorting.consistent_iff] at htangled
    push Not at htangled
    exact htangled
  · have hsorter : ({ m with pageSize } : Memory).sorter = m.sorter := rfl
    exact outcome_find_eq hsorter hdraws criteria

def ranked (id rank : String) : Item := .ofList [("id", .str id), ("rank", .str rank)]

/-- Items of two partitions, two of one rank. -/
def rankedStore : Store :=
  Store.put default "items" ⟨"p", "a"⟩ (ranked "a" "2")
    |>.put "items" ⟨"p", "b"⟩ (ranked "b" "3")
    |>.put "items" ⟨"p", "c"⟩ (ranked "c" "2")
    |>.put "items" ⟨"q", "d"⟩ (ranked "d" "1")

def rankedQuery : Query :=
  { partitionValue := some "p", sorting := some ⟨"rank", .descending⟩, pageSize := some 2 }

theorem follows_query_ranked :
    (∃ pages, Follows (Memory.backend {} |>.query "items" rankedQuery) rankedStore none pages ∧
      (∀ page ∈ pages.dropLast, page.items.length = 2) ∧
      pages.flatMap Page.items = [ranked "b" "3", ranked "a" "2", ranked "c" "2"]) ∧
    Sorting.StablySorted (Sorting.order ⟨"rank", .descending⟩)
      [ranked "a" "2", ranked "b" "3", ranked "c" "2"]
      [ranked "b" "3", ranked "a" "2", ranked "c" "2"] := by
  have hfound : (rankedStore.shelf "items").matching rankedQuery =
      .ok [ranked "a" "2", ranked "b" "3", ranked "c" "2"] := by rfl
  have hsorted : Sorter.placing.sortBy rankedQuery.sorting
      [ranked "a" "2", ranked "b" "3", ranked "c" "2"] =
        .ok [ranked "b" "3", ranked "a" "2", ranked "c" "2"] := by rfl
  obtain ⟨-, hpages, -⟩ := follows_query {} rfl (by decide +kernel) hfound
  obtain ⟨⟨pages, hpages, hfull, hitems⟩, -, -, hstable⟩ := hpages _ hsorted
  refine ⟨⟨pages, (hpages pages).2 rfl, hfull, hitems⟩, (hstable _ rfl ?_ _).2 rfl⟩
  decide +kernel

/-- Items of which the number two counts as equal to a text, and the text to the number one. -/
def mixedStore : Store :=
  Store.put default "items" ⟨"p", "a"⟩ (Sorting.withRank (.int 2))
    |>.put "items" ⟨"p", "b"⟩ (Sorting.withRank (.str "x"))
    |>.put "items" ⟨"p", "c"⟩ (Sorting.withRank (.int 1))

/-- A query for the first of the three yields the two, and nothing sorts them. -/
theorem exists_page_out_of_order :
    Follows (Memory.backend {} |>.query "items" { sorting := some Sorting.byRank, limit := some 1 })
        mixedStore none [{ items := [Sorting.withRank (.int 2)] }] ∧
      Sorting.byRank.order (Sorting.withRank (.int 2)) (Sorting.withRank (.int 1)) = .gt ∧
      ∀ results, ¬Sorting.StablySorted Sorting.byRank.order
        [Sorting.withRank (.int 2), Sorting.withRank (.str "x"), Sorting.withRank (.int 1)] results := by
  have htangled : Sorting.byRank.Tangled (Sorting.withRank (.int 2)) (Sorting.withRank (.str "x"))
      (Sorting.withRank (.int 1)) := by
    decide +kernel
  exact ⟨.last rfl rfl, htangled.inverted, htangled.not_stablySorted⟩

end Service
end DocumentStore
