import EntityQuery.Proofs.Evaluation.Counting
import EntityQuery.Proofs.Session.Refusals

/-! # Pages

A query is filtered, grouped and sorted before its window is looked at, so its rows in a window are
those in the window of all its rows.  Whoever asks for page after page, up to the first one without
results, has seen what there is without a window, each result once and in its place. -/

namespace EntityQuery

variable {E : Type}

/-! ## The rows of a window -/

namespace Plan

variable {p : Plan E} {frames : Frames} {gs : List (List Tuple)} {rows : List Row}

/-- Rows are made of one group each. -/
theorem rows_eq_mapM : p.rows frames gs =
    gs.mapM fun g => (p.columns frames g p.selections).map Row.mk := by
  induction gs with
  | nil => rfl
  | cons g gs ih =>
    rw [rows, ih, List.mapM_cons]
    cases p.columns frames g p.selections <;> rfl

/-- Rows are made one by one, so leaving groups out leaves out their rows. -/
theorem rows_window (h : p.rows frames gs = .ok rows) :
    p.rows frames (p.window gs) = .ok (p.window rows) := by
  rw [rows_eq_mapM, Result.mapM_eq_ok] at h ⊢
  have hrest := List.forall₂_drop (p.first?.getD 0) h
  rw [window, window]
  cases p.max? with
  | none => exact hrest
  | some max => exact List.forall₂_take max hrest

end Plan

namespace Plan

variable {p p' : Plan E} (frames : Frames)

/-- Who represents a group depends on the joins only. -/
theorem representative_congr (hjoins : p.joins = p'.joins) (g : List Tuple) :
    p.representative g = p'.representative g := by
  rw [representative, representative, hjoins]

theorem sortKeys_congr (hjoins : p.joins = p'.joins) (horders : p.orders = p'.orders)
    (gs : List (List Tuple)) : p.sortKeys frames gs = p'.sortKeys frames gs := by
  induction gs with
  | nil => rfl
  | cons g gs ih => rw [sortKeys, sortKeys, ih, representative_congr hjoins, horders]

/-- Sorting does not look at the window. -/
theorem sorted_congr (hjoins : p.joins = p'.joins) (horders : p.orders = p'.orders)
    (gs : List (List Tuple)) : p.sorted frames gs = p'.sorted frames gs := by
  rw [sorted, sorted, sortKeys_congr frames hjoins horders, horders]

theorem columns_congr (hjoins : p.joins = p'.joins) (g : List Tuple) (ss : List Selection) :
    p.columns frames g ss = p'.columns frames g ss := by
  induction ss with
  | nil => rfl
  | cons s ss ih => rw [columns, columns, ih, representative_congr hjoins]

/-- Rows do not look at the window. -/
theorem rows_congr (hjoins : p.joins = p'.joins) (hselections : p.selections = p'.selections)
    (gs : List (List Tuple)) : p.rows frames gs = p'.rows frames gs := by
  simp only [rows_eq_mapM, hselections, columns_congr frames hjoins]

end Plan

/-! ## Exchanges over unchanging data -/

namespace Exchange

variable {α β : Type} {data : Dataset}

/-- Over this data an exchange comes to this result, and it leaves the data as it is. -/
def Yields (data : Dataset) (x : Exchange (Memory E) α) (r : Result α) : Prop :=
  ∀ m, m.data = data → (x m).1 = r ∧ (x m).2.data = data

theorem yields_ofResult (r : Result α) : Yields data (.ofResult r : Exchange (Memory E) α) r :=
  fun _ hm => ⟨rfl, hm⟩

/-- Results over unchanging data are passed on. -/
theorem Yields.bind {x : Exchange (Memory E) α} {f : α → Exchange (Memory E) β} {r : Result α}
    {s : α → Result β} (hx : Yields data x r) (hf : ∀ a, r = .ok a → Yields data (f a) (s a)) :
    Yields data (x >>= f) (r >>= s) := by
  intro m hm
  obtain ⟨hr, hdata⟩ := hx m hm
  rw [bind_apply]
  rcases h : x m with ⟨_ | a, m'⟩ <;> rw [h] at hr hdata
  · exact ⟨hr ▸ rfl, hdata⟩
  · rw [← hr]
    exact hf a hr.symm m' hdata

/-- An exchange goes on with what came out of the one before. -/
theorem Yields.next {x : Exchange (Memory E) α} {f : α → Exchange (Memory E) β} {a : α}
    {s : Result β} (hx : Yields data x (.ok a)) (hf : Yields data (f a) s) :
    Yields data (x >>= f) s :=
  hx.bind (s := fun _ => s) fun _ ha => Except.ok.inj ha ▸ hf

end Exchange

open Exchange

theorem Bound.yields_project {T : Type} [Projectable T] (shape : Shape T) (rows : List Row) :
    Yields data (Bound.project shape rows : Exchange (Memory E) _) (rows.mapM shape.project) :=
  yields_ofResult _

variable [Schema E]

/-! ## Windows of a query -/

namespace GraphQuery

variable {data : Dataset} {q : GraphQuery E} {rows : List Row}

/-- What a window shows is what it shows of all rows. -/
theorem run_withWindow (h : (q.withWindow none none).run data = .ok rows)
    (first? max? : Option Nat) : (q.withWindow first? max?).run data =
      .ok ((q.withWindow first? max?).plan.window rows) := by
  rw [run, meaning_eq] at h ⊢
  obtain ⟨filtered, hfiltered, h⟩ := Result.bind_eq_ok.1 h
  obtain ⟨gs, hgs, h⟩ := Result.bind_eq_ok.1 h
  obtain ⟨sorted, hsorted, hrows⟩ := Result.bind_eq_ok.1 h
  have hjoins : (q.withWindow none none).plan.joins = (q.withWindow first? max?).plan.joins := rfl
  rw [Plan.sorted_congr [] hjoins rfl] at hsorted
  rw [Plan.rows_congr [] hjoins rfl] at hrows
  exact Result.bind_eq_ok.2 ⟨filtered, hfiltered, Result.bind_eq_ok.2 ⟨gs, hgs,
    Result.bind_eq_ok.2 ⟨sorted, hsorted, Plan.rows_window hrows⟩⟩⟩

end GraphQuery

/-- The draft without a window. -/
def Draft.unwindowed {κ : Type} (d : Draft E κ) : Draft E κ :=
  d.mapOutline fun o => { o with limit? := none, offset? := none }

/-- A draft without a window compiles to the query without one. -/
theorem GraphQuery.ofDraft_unwindowed {d : Draft E (ScopedCondition E)} {q : GraphQuery E}
    (h : ofDraft .rows d = .ok q) : ofDraft .rows d.unwindowed = .ok (q.withWindow none none) := by
  obtain ⟨known, h⟩ := ofLevel_eq_ok.1 h
  exact ofLevel_eq_ok.2 ⟨known, { h with first := rfl, max := rfl }⟩

variable {d : Draft E (ScopedCondition E)} {data : Dataset} {q : GraphQuery E}
  {rows : List Row} {total : Nat}

namespace Bound

/-- A session in memory answers with the rows of the query. -/
theorem yields_send (d : Draft E (ScopedCondition E)) (q : GraphQuery E) :
    Yields data (d.inMemory.send q) (q.run data) := by
  rintro m rfl
  change (Memory.session.answer q m).1 = _ ∧ (Memory.session.answer q m).2.data = _
  cases h : q.run m.data <;> simp only [Memory.session, h, and_self]

theorem yields_compile (d : Draft E (ScopedCondition E)) (purpose : Purpose) :
    Yields data (d.inMemory.compile purpose) (GraphQuery.ofDraft purpose d) :=
  yields_ofResult _

/-- Counting only reads, whatever it comes to. -/
theorem exists_yields_countResults (d : Draft E (ScopedCondition E)) (data : Dataset) :
    ∃ r, Yields data d.inMemory.countResults r := by
  refine ⟨_, (yields_compile d .count).bind fun q _ => (yields_send d q).bind
    (s := fun rows => if d.outline.groups.isEmpty then
      ((rows.head?.bind Row.first?).map countOf).getD (.ok 0) else .ok rows.length)
    fun rows _ => ?_⟩
  change Yields data (if d.outline.groups.isEmpty then _ else _) _
  split
  · cases rows.head?.bind Row.first? <;> exact yields_ofResult _
  · exact yields_ofResult _

/-- A count that is known is the same at any time. -/
theorem yields_countResults {m : Memory E} (h : (d.inMemory.countResults m).1 = .ok total) :
    Yields m.data d.inMemory.countResults (.ok total) := by
  obtain ⟨r, hr⟩ := exists_yields_countResults d m.data
  rwa [← (hr m rfl).1.symm.trans h]

theorem yields_compiled {purpose : Purpose} (hq : GraphQuery.ofDraft purpose d = .ok q) :
    Yields data (d.inMemory.compile purpose) (.ok q) := hq ▸ yields_compile d purpose

theorem yields_sent (hrows : q.run data = .ok rows) : Yields data (d.inMemory.send q) (.ok rows) :=
  hrows ▸ yields_send d q

end Bound

/-- There is always a count. -/
theorem GraphQuery.counted_ok (hq : ofDraft .rows d = .ok q) (ts : List Tuple) :
    ∃ total, q.counted ts = .ok total := by
  obtain ⟨gs, hgs⟩ := groupTuples_ok hq ts
  rw [counted, hgs]
  split <;> exact ⟨_, rfl⟩

/-! ## Pages -/

variable {T : Type} [Projectable T]

/-- The results on pages of `size` from an offset on, put together up to the first page without any;
none if there is no such page among the first `count`. -/
def Bound.pages? {κ Q σ : Type} (b : Bound E κ Q σ) (shape : Shape T) (size : Nat) :
    Nat → Nat → Exchange σ (Option (List Projected))
  | 0, _ => return none
  | count + 1, offset => do
    let page ← b.page shape size offset
    if page.isEmpty then return some []
    else return (← b.pages? shape size count (offset + size)).map (page.data ++ ·)

namespace Bound

/-- Getting results is projecting the rows. -/
theorem yields_get (hq : GraphQuery.ofDraft .rows d = .ok q) (hrows : q.run data = .ok rows)
    (shape : Shape T) : Yields data (d.inMemory.get shape) (rows.mapM shape.project) :=
  ((yields_compiled hq).next (yields_sent hrows)).next (yields_project shape rows)

/-- The first result is that of the first row, whatever window the draft has. -/
theorem yields_findFirst (hq : GraphQuery.ofDraft .rows d = .ok q)
    (hrows : (q.withWindow none none).run data = .ok rows) (shape : Shape T) :
    Yields data (d.inMemory.findFirst shape) (rows.head?.mapM shape.project) := by
  have hwindow := GraphQuery.run_withWindow hrows none (some 1)
  have hfirst : Yields data d.inMemory.firstRow? (.ok (rows.take 1).head?) :=
    (yields_compiled hq).next ((yields_sent hwindow).next (yields_ofResult _))
  refine hfirst.next ?_
  cases rows with
  | nil => exact yields_ofResult _
  | cons row rows =>
    exact (yields_ofResult (shape.project row)).bind fun i _ => yields_ofResult (.ok (some i))

/-- A page has the results of its window, and the count. -/
theorem yields_page (hq : GraphQuery.ofDraft .rows d = .ok q)
    (hrows : (q.withWindow none none).run data = .ok rows)
    (hcount : Yields data d.inMemory.countResults (.ok total)) (shape : Shape T)
    (limit offset : Nat) : Yields data (d.inMemory.page shape limit offset)
      (((rows.drop offset).take limit).mapM shape.project >>= fun items =>
        .ok ⟨items, offset, total⟩) := by
  have hwindow := GraphQuery.run_withWindow hrows (some offset) (some limit)
  refine hcount.next ((yields_compiled hq).next ((yields_sent hwindow).next ?_))
  exact (yields_project shape _).bind fun items _ => yields_ofResult _

/-- Page after page, the rows from the offset on come to what they come to at once. -/
theorem yields_pages? (hq : GraphQuery.ofDraft .rows d = .ok q)
    (hrows : (q.withWindow none none).run data = .ok rows)
    (hcount : Yields data d.inMemory.countResults (.ok total)) (shape : Shape T) {size : Nat}
    (hsize : 0 < size) {count offset : Nat} (hmany : (rows.drop offset).length < count) :
    Yields data (d.inMemory.pages? shape size count offset)
      ((rows.drop offset).mapM shape.project >>= fun items => .ok (some items)) := by
  induction count generalizing offset with
  | zero => exact absurd hmany (Nat.not_lt_zero _)
  | succ count ih =>
    have hpage := yields_page hq hrows hcount shape size offset
    by_cases hnone : rows.drop offset = []
    · rw [hnone, List.take_nil] at hpage
      rw [hnone]
      exact Yields.next hpage (yields_ofResult (.ok (some [])))
    · have hlength : 0 < (rows.drop offset).length := List.length_pos_iff.2 hnone
      have hfewer : (rows.drop (offset + size)).length < count := by
        rw [List.length_drop] at hmany hlength ⊢
        omega
      have hrest := ih hfewer
      rw [← List.drop_drop] at hrest
      -- the page comes first and then the rest, also where they are not all projected
      have hsplit : ((rows.drop offset).mapM shape.project >>= fun items => .ok (some items)) =
          (((rows.drop offset).take size).mapM shape.project >>= fun items =>
            .ok (⟨items, offset, total⟩ : Page Projected)) >>= fun page =>
              ((rows.drop offset).drop size).mapM shape.project >>= fun items =>
                .ok (some (page.data ++ items)) := by
        conv_lhs => rw [← List.take_append_drop size (rows.drop offset), List.mapM_append]
        simp only [bind_assoc, pure_bind]
        rfl
      rw [hsplit]
      refine hpage.bind fun page hdata => ?_
      obtain ⟨items, hitems, hdata⟩ := Result.bind_eq_ok.1 hdata
      obtain rfl := Except.ok.inj hdata
      have hmore : Page.isEmpty ⟨items, offset, total⟩ = false := by
        have hsame := (Result.mapM_eq_ok.1 hitems).length_eq
        rw [List.length_take] at hsame
        have hsome : items ≠ [] := List.length_pos_iff.1 (by omega)
        simpa [Page.isEmpty] using hsome
      simp only [hmore, Bool.false_eq_true, if_false]
      have hnext := hrest.bind (s := fun items? => .ok (items?.map (items ++ ·)))
        fun _ _ => yields_ofResult _
      rw [bind_assoc] at hnext
      exact hnext

end Bound

namespace GraphQuery

/-- The rows of a window are those in the window of all rows, and the first result is that of the
first row, whatever window the draft has.  The results on all pages of a size are all results in
their order, if there are no more tuples than can be counted. -/
theorem pages_tile_rows {m : Memory E} (hq : ofDraft .rows d = .ok q)
    (hrows : (q.withWindow none none).run m.data = .ok rows) (shape : Shape T) :
    (∀ offset limit, (q.withWindow (some offset) (some limit)).run m.data =
      .ok ((rows.drop offset).take limit)) ∧
    (d.inMemory.findFirst shape m).1 = rows.head?.mapM shape.project ∧
    ((∀ ts, q.kept m.data = .ok ts → IntWidth.long.Holds ts.length) →
      ∀ size, 0 < size → ∀ count, rows.length < count →
        (d.inMemory.pages? shape size count 0 m).1 =
          (d.unwindowed.inMemory.get shape m).1.map some) := by
  refine ⟨fun offset limit => run_withWindow hrows (some offset) (some limit),
    (Bound.yields_findFirst hq hrows shape m rfl).1, fun hlong size hsize count hcount => ?_⟩
  obtain ⟨ts, -, hts, -⟩ := length_of_run hrows
  obtain ⟨total, htotal⟩ := counted_ok hq ts
  have hcounted := Bound.yields_countResults (countResults_eq hq hts (hlong ts hts) htotal)
  have hall : (rows.drop 0).length < count := hcount
  have hpages := Bound.yields_pages? hq hrows hcounted shape hsize hall
  have hget := Bound.yields_get (ofDraft_unwindowed hq) hrows shape
  rw [(hpages m rfl).1, (hget m rfl).1, List.drop_zero]
  cases rows.mapM shape.project <;> rfl

end GraphQuery

/-! ## Pages of ages -/

namespace Kennel

def personOf (name : String) (age : Value) : Record :=
  ⟨"Owner", [("age", age), ("name", .string name)]⟩

/-- The age of Eve is not known. -/
def ages : Memory Kennel := ⟨⟨[("Owner",
  [personOf "Ada" (.long 40), personOf "Bob" (.long 30), personOf "Cy" (.long 40),
    personOf "Eve" .null, personOf "Flo" (.long 20)])]⟩, []⟩

/-- How many owners are of each age, the oldest first, but for the oldest. -/
def ownersByAge : Draft Kennel (ScopedCondition Kennel) where
  outline := {
    root := .owner
    selects := [⟨"name", none, some .count⟩]
    orders := [⟨"age", .desc⟩]
    groups := ["age"]
    limit? := some 2
    offset? := some 1 }

/-- On pages of three there are four rows, one for each age and one for none. -/
theorem pages_tile_rows_of_ages : ∃ q rows, GraphQuery.ofDraft .rows ownersByAge = .ok q ∧
    (q.withWindow none none).run ages.data = .ok rows ∧ rows.length = 4 ∧
    (q.withWindow (some 1) (some 2)).run ages.data = .ok ((rows.drop 1).take 2) ∧
    (ownersByAge.inMemory.findFirst (.row : Shape Kennel) ages).1 =
      rows.head?.mapM (.row : Shape Kennel).project ∧
    (ownersByAge.inMemory.pages? (.row : Shape Kennel) 3 5 0 ages).1 =
      (ownersByAge.unwindowed.inMemory.get (.row : Shape Kennel) ages).1.map some := by
  have hrun : (GraphQuery.ofDraft .rows ownersByAge).bind (fun q =>
      ((q.withWindow none none).run ages.data).map fun rows =>
        (rows.length, (q.kept ages.data).map List.length)) = .ok (4, .ok 5) := by
    decide +kernel
  obtain ⟨q, hq, hrun⟩ := Result.bind_eq_ok.1 hrun
  obtain ⟨rows, hrows, hrun⟩ := Result.map_eq_ok.1 hrun
  simp only [Prod.mk.injEq] at hrun
  obtain ⟨hfour, hkept⟩ := hrun
  have hlong : ∀ ts, q.kept ages.data = .ok ts → IntWidth.long.Holds ts.length := by
    intro ts hts
    rw [hts] at hkept
    rw [Except.ok.inj hkept]
    decide
  obtain ⟨hwindow, hfirst, hpages⟩ := GraphQuery.pages_tile_rows hq hrows (.row : Shape Kennel)
  exact ⟨q, rows, hq, hrows, hfour, hwindow 1 2, hfirst,
    hpages hlong 3 (by decide) 5 (by rw [hfour]; decide)⟩

end Kennel

end EntityQuery
