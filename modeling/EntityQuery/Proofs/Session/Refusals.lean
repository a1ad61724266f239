import EntityQuery.Proofs.Session.Exchange
import EntityQuery.Proofs.Success
import EntityQuery.Proofs.Kennel
import EntityQuery.Session.Script
import EntityQuery.Session.Kind

/-! # Refused drafts

A draft that cannot be compiled should leave the session alone.  All terminal operations compile
what they send first, but a page does so in two steps: it has sent its count when it compiles the
query for its rows.  The text of a count is refused whenever the text for the rows is; a graph is
not, since selections, orders and fetches are only checked for the rows. -/

namespace EntityQuery

variable {E κ Q σ T : Type}

/-! ## Calls -/

/-- The session, keeping the queries it receives. -/
def Session.recorded (s : Session Q σ) : Session Q (σ × List Q) where
  answer q state := ((s.answer q state.1).1, ((s.answer q state.1).2, state.2 ++ [q]))

/-- The terminal operations.  A filter is a comparison that comes with the call. -/
inductive Terminal (T : Type) where
  | get (shape : Shape T)
  | selectedRows
  | findFirst (shape : Shape T)
  | findFor (shape : Shape T)
  | findFirstFor (shape : Shape T)
  | page (shape : Shape T) (limit offset : Nat)
  | countResults
  | exist
  | filtered (field : String) (operator : Operator) (value : Value) (t : Terminal T)

/-- What a terminal operation returns. -/
inductive Answer where
  | results (items : List Projected)
  | rows (rows : List Row)
  | first (item? : Option Projected)
  | page (page : Page Projected)
  | count (n : Nat)
  | truth (b : Bool)

namespace Terminal

/-- The draft that is compiled in the end. -/
def draft (d : Draft E κ) : Terminal T → Draft E κ
  | filtered field operator value t => t.draft (d.filter (.compare none field operator value))
  | _ => d

/-- What the draft is compiled for first. -/
def firstPurpose : Terminal T → Purpose
  | page .. | countResults | exist => .count
  | filtered _ _ _ t => t.firstPurpose
  | _ => .rows

/-- The operations that ask for selections before they compile. -/
def needsSelects : Terminal T → Bool
  | selectedRows | findFor .. | findFirstFor .. => true
  | filtered _ _ _ t => t.needsSelects
  | _ => false

/-- The operations that ask for a page, with comparisons or without. -/
def isPage : Terminal T → Bool
  | page .. => true
  | filtered _ _ _ t => t.isPage
  | _ => false

/-- A page is counted first. -/
theorem firstPurpose_of_isPage (t : Terminal T) (h : t.isPage) : t.firstPurpose = .count := by
  induction t with
  | page shape limit offset => rfl
  | filtered field operator value t ih => exact ih h
  | _ => cases h

variable [Schema E] [Projectable T]

/-- The operation on a bound draft. -/
def run (b : Bound E κ Q σ) : Terminal T → Exchange σ Answer
  | get shape => .results <$> b.get shape
  | selectedRows => .rows <$> b.selectedRows
  | findFirst shape => .first <$> b.findFirst shape
  | findFor shape => .results <$> b.findFor shape
  | findFirstFor shape => .first <$> b.findFirstFor shape
  | page shape limit offset => .page <$> b.page shape limit offset
  | countResults => .count <$> b.countResults
  | exist => .truth <$> b.exist
  | filtered field operator value t => t.run (b.filter field operator value)

/-- What a call returns, and the queries the session received during it. -/
def call (t : Terminal T) (kind : QueryKind E κ Q) (d : Draft E κ) (s : Session Q σ) (state : σ) :
    Result Answer × List Q :=
  let r := t.run ⟨d, kind, some s.recorded⟩ (state, [])
  (r.1, r.2.2)

end Terminal

/-! ## Compilation -/

/-- The kind of queries of which all refusals are renamed. -/
def QueryKind.mapError (f : Error → Error) (kind : QueryKind E κ Q) : QueryKind E κ Q :=
  { kind with ofDraft purpose d := (kind.ofDraft purpose d).mapError f }

theorem QueryKind.mapError_of_refused {kind : QueryKind E κ Q} {purpose : Purpose} {d : Draft E κ}
    {e : Error} (h : kind.ofDraft purpose d = .error e) (f : Error → Error) :
    (kind.mapError f).ofDraft purpose d = .error (f e) :=
  congrArg (Except.mapError f) h

namespace Bound

variable {b : Bound E κ Q σ} {purpose : Purpose} {q : Q} {e : Error}

/-- Compiling a refused draft is refused, in any state of the session. -/
theorem compile_refuses (h : b.kind.ofDraft purpose b.draft = .error e) :
    (b.compile purpose).Refuses e := by
  intro state
  rw [compile, h, Exchange.ofResult]

/-- Renaming refusals changes nothing for a draft that is not refused. -/
theorem compile_mapError (h : (b.kind.ofDraft purpose b.draft).isOk) (f : Error → Error) :
    { b with kind := b.kind.mapError f }.compile purpose = b.compile purpose := by
  obtain ⟨q, hq⟩ := Result.exists_of_isOk h
  simp only [compile, QueryKind.mapError, hq, Except.mapError]

theorem countResults_refuses [Schema E] (h : b.kind.ofDraft .count b.draft = .error e) :
    b.countResults.Refuses e := (compile_refuses h).bind _

theorem countResults_mapError [Schema E] (h : (b.kind.ofDraft .count b.draft).isOk)
    (f : Error → Error) :
    { b with kind := b.kind.mapError f }.countResults = b.countResults := by
  simp only [countResults, compile_mapError h]
  rfl

/-- Missing selections are found before any other refusal. -/
theorem requireSelects_bind {α : Type} (b : Bound E κ Q σ) {x : Exchange σ α} (h : x.Refuses e) :
    (b.requireSelects >>= fun _ => x).Refuses
      (if b.draft.outline.selects = [] then .selectsMissing else e) := by
  intro state
  rw [Exchange.bind_apply, requireSelects]
  by_cases hselects : b.draft.outline.selects = []
  · simp only [hselects, List.isEmpty_nil, if_true]
    rfl
  · simp only [hselects, List.isEmpty_iff, if_false]
    exact h state

end Bound

namespace Terminal

variable [Schema E] [Projectable T] {t : Terminal T} {e : Error}

/-- Nothing is sent before the first compilation. -/
theorem run_refuses (b : Bound E κ Q σ)
    (h : b.kind.ofDraft t.firstPurpose (t.draft b.draft) = .error e) :
    (t.run b).Refuses
      (if t.needsSelects ∧ b.draft.outline.selects = [] then .selectsMissing else e) := by
  induction t generalizing b with
  | get shape => exact (((Bound.compile_refuses h).bind _).bind _).map _
  | selectedRows =>
    simp only [needsSelects, true_and]
    exact (b.requireSelects_bind ((Bound.compile_refuses h).bind _)).map _
  | findFirst shape => exact (((Bound.compile_refuses h).bind _).bind _).map _
  | findFor shape =>
    simp only [needsSelects, true_and]
    exact ((b.requireSelects_bind ((Bound.compile_refuses h).bind _)).bind _).map _
  | findFirstFor shape =>
    simp only [needsSelects, true_and]
    exact (b.requireSelects_bind (((Bound.compile_refuses h).bind _).bind _)).map _
  | page shape limit offset => exact ((Bound.countResults_refuses h).bind _).map _
  | countResults => exact (Bound.countResults_refuses h).map _
  | exist => exact ((Bound.countResults_refuses h).bind _).map _
  | filtered field operator value t ih => exact ih (b.filter field operator value) h

/-- Renaming refusals makes no difference to a call without one. -/
theorem run_mapError (b : Bound E κ Q σ)
    (hfirst : (b.kind.ofDraft t.firstPurpose (t.draft b.draft)).isOk)
    (hpage : t.isPage → (b.kind.ofDraft .rows (t.draft b.draft)).isOk) (f : Error → Error) :
    t.run { b with kind := b.kind.mapError f } = t.run b := by
  have hcompile (purpose : Purpose) (h : (b.kind.ofDraft purpose b.draft).isOk) :
      { b with kind := b.kind.mapError f }.compile purpose = b.compile purpose :=
    Bound.compile_mapError h f
  induction t generalizing b with
  | get shape =>
    simp only [run, Bound.get, Bound.rows, hcompile .rows hfirst]
    rfl
  | selectedRows =>
    simp only [run, Bound.selectedRows, Bound.rows, hcompile .rows hfirst]
    rfl
  | findFirst shape =>
    simp only [run, Bound.findFirst, Bound.firstRow?, hcompile .rows hfirst]
    rfl
  | findFor shape =>
    simp only [run, Bound.findFor, Bound.selectedRows, Bound.rows, hcompile .rows hfirst]
    rfl
  | findFirstFor shape =>
    simp only [run, Bound.findFirstFor, Bound.findFirst, Bound.firstRow?, hcompile .rows hfirst]
    rfl
  | page shape limit offset =>
    simp only [run, Bound.page, Bound.countResults_mapError hfirst, hcompile .rows (hpage rfl)]
    rfl
  | countResults =>
    simp only [run, Bound.countResults_mapError hfirst]
  | exist =>
    simp only [run, Bound.exist, Bound.countResults_mapError hfirst]
  | filtered field operator value t ih =>
    exact ih (b.filter field operator value) hfirst hpage fun _ h => Bound.compile_mapError h f

/-- A page whose rows are refused has been counted before. -/
theorem run_page_of_refused (b : Bound E κ Q σ)
    (h : b.kind.ofDraft .rows b.draft = .error e) (shape : Shape T) (limit offset : Nat)
    (state : σ) :
    ((page shape limit offset).run b state) =
      ((b.countResults state).1.bind fun _ => .error e, (b.countResults state).2) := by
  rw [run, Exchange.map_apply, Bound.page, Exchange.bind_apply]
  rcases b.countResults state with ⟨_ | n, state⟩
  · rfl
  · simp only [((Bound.compile_refuses h).bind _) state]
    rfl

/-- A count sends one query. -/
theorem countResults_received (d : Draft E κ) (kind : QueryKind E κ Q) (s : Session Q σ) (state : σ)
    {q : Q} (h : kind.ofDraft .count d = .ok q) :
    ((⟨d, kind, some s.recorded⟩ : Bound E κ Q _).countResults (state, [])).2.2 = [q] := by
  rw [Bound.countResults, Exchange.bind_apply, Bound.compile, h]
  simp only [Exchange.ofResult, Bound.send, Exchange.bind_apply, Session.recorded, List.nil_append]
  rcases s.answer q state with ⟨_ | rows, state⟩
  · rfl
  · cases d.outline.groups with
    | cons => rfl
    | nil =>
      simp only [List.isEmpty_nil, if_true]
      cases rows.head?.bind Row.first? <;> rfl

/-! ## Refusals -/

/-- The error of a call was raised by a compilation: it is renamed along with refusals. -/
def Raised (t : Terminal T) (kind : QueryKind E κ Q) (d : Draft E κ) (s : Session Q σ) (state : σ)
    (e : Error) : Prop :=
  ∀ f : Error → Error, (t.call (kind.mapError f) d s state).1 = .error (f e)

/-- An error is not renamed in two ways at once. -/
theorem not_raised_of_mapError {kind : QueryKind E κ Q} {d : Draft E κ} {s : Session Q σ}
    {state : σ} (h : ∀ f, t.call (kind.mapError f) d s state = t.call kind d s state) :
    ¬t.Raised kind d s state e := by
  intro hraised
  have hrenamed (e' : Error) : (t.call kind d s state).1 = .error e' := by
    rw [← h fun _ => e']
    exact hraised fun _ => e'
  have hsame := (hrenamed .selectsMissing).symm.trans (hrenamed .subQueryUntyped)
  cases hsame

section Received

variable {kind : QueryKind E κ Q} {d : Draft E κ} {s : Session Q σ} {state : σ}

/-- If the first compilation is refused, the session receives nothing. -/
theorem received_of_refused (h : kind.ofDraft t.firstPurpose (t.draft d) = .error e) :
    (t.call kind d s state).2 = [] := by
  rw [call, run_refuses ⟨d, kind, some s.recorded⟩ h (state, [])]

/-- An error of translation comes from the first compilation, unless it is a page. -/
theorem refused_of_raised (h : t.Raised kind d s state e)
    (hpage : t.isPage → (kind.ofDraft .rows (t.draft d)).isOk) :
    ∃ e', kind.ofDraft t.firstPurpose (t.draft d) = .error e' := by
  cases hfirst : kind.ofDraft t.firstPurpose (t.draft d) with
  | error e' => exact ⟨e', rfl⟩
  | ok q =>
    refine absurd h (not_raised_of_mapError fun f => ?_)
    have hrun := run_mapError ⟨d, kind, some s.recorded⟩ (t := t) (by rw [hfirst]; rfl) hpage f
    simp only [call, hrun]

/-- If an error was raised by a compilation, then nothing was received, but that a page may have
sent its count. -/
theorem received_of_raised (h : t.Raised kind d s state e) :
    (t.call kind d s state).2 =
      if t.isPage then (kind.ofDraft .count (t.draft d)).toOption.toList else [] := by
  induction t generalizing d with
  | page shape limit offset =>
    cases hcount : kind.ofDraft .count d with
    | error e' =>
      rw [received_of_refused hcount]
      simp [draft, hcount, Except.toOption, isPage]
    | ok q =>
      cases hrows : kind.ofDraft .rows d with
      | ok q' =>
        obtain ⟨e', he⟩ := refused_of_raised h fun _ => congrArg Except.isOk hrows
        cases hcount.symm.trans he
      | error e' =>
        rw [call, run_page_of_refused ⟨d, kind, some s.recorded⟩ hrows,
          countResults_received d kind s state hcount]
        simp [draft, hcount, Except.toOption, isPage]
  | filtered field operator value t ih => exact ih h
  | _ =>
    obtain ⟨e', he⟩ := refused_of_raised h nofun
    exact received_of_refused he

end Received

end Terminal

/-! ## The two kinds of queries -/

/-- What is written for rows only is written without fail. -/
theorem Statement.exists_ofLevel_rows [Schema E] {o : Outline E} {conditions : List TextClause}
    {ps ps' : Parameters} {statement : Statement}
    (h : ofLevel .count o conditions ps = .ok (statement, ps')) :
    ∃ statement', ofLevel .rows o conditions ps = .ok (statement', ps') := by
  have hselect : ∃ select?, selectText .rows (o.acronym?.getD (Schema.acronym o.root)) o.selects =
      .ok select? := by
    cases o.selects <;> exact ⟨_, rfl⟩
  obtain ⟨select?, hselect⟩ := hselect
  rw [ofLevel, Binding.bind_eq_ok] at h
  obtain ⟨_, ps₁, hcount, h⟩ := h
  obtain ⟨-, rfl⟩ := Binding.lift_eq_ok.1 hcount
  rw [Binding.bind_eq_ok] at h
  obtain ⟨joins, ps₂, hjoins, h⟩ := h
  rw [Binding.bind_eq_ok] at h
  obtain ⟨tokens, ps₃, htokens, h⟩ := h
  obtain ⟨-, rfl⟩ := Binding.pure_eq_ok.1 h
  simp only [ofLevel, Binding.bind_eq_ok]
  exact ⟨_, select?, ps, Binding.lift_eq_ok.2 ⟨hselect, rfl⟩, joins, ps₂, hjoins, tokens, ps₃,
    htokens, rfl⟩

/-- The rows of a draft have a text if their number has. -/
theorem TextQuery.isOk_ofDraft_rows [Schema E] {d : Draft E String} {q : TextQuery}
    (h : ofDraft .count d = .ok q) : (ofDraft .rows d).isOk := by
  rw [ofDraft, Result.bind_eq_ok] at h
  obtain ⟨⟨statement, ps⟩, hlevel, -⟩ := h
  obtain ⟨statement', hlevel⟩ := Statement.exists_ofLevel_rows hlevel
  rw [ofDraft, hlevel]
  rfl

/-- A draft that could not be compiled to a text has not reached the session.  One that could not be
compiled to a graph has not either, except that a page may have sent its count before. -/
theorem Terminal.unsent_of_raised {σ σ' : Type} [Schema E] [Projectable T] (t : Terminal T) :
    (∀ (d : Draft E String) (s : Session TextQuery σ) (state : σ) (e : Error),
      t.Raised TextQuery.kind d s state e → (t.call TextQuery.kind d s state).2 = []) ∧
    ∀ (d : Draft E (ScopedCondition E)) (s : Session (GraphQuery E) σ') (state : σ') (e : Error),
      t.Raised GraphQuery.kind d s state e →
        (t.call GraphQuery.kind d s state).2 =
          if t.isPage then (GraphQuery.ofDraft .count (t.draft d)).toOption.toList else [] := by
  refine ⟨fun d s state e h => ?_, fun d s state e h => received_of_raised h⟩
  have hrefused : ∃ e', TextQuery.ofDraft t.firstPurpose (t.draft d) = .error e' := by
    cases hfirst : TextQuery.ofDraft t.firstPurpose (t.draft d) with
    | error e' => exact ⟨e', rfl⟩
    | ok q =>
      rw [← hfirst]
      refine refused_of_raised h fun hpage => ?_
      rw [t.firstPurpose_of_isPage hpage] at hfirst
      exact TextQuery.isOk_ofDraft_rows hfirst
  obtain ⟨e', he⟩ := hrefused
  exact received_of_refused he

/-! ## Refusals are raised -/

namespace Terminal

variable [Schema E] [Projectable T] {t : Terminal T} {kind : QueryKind E κ Q} {d : Draft E κ}
  {e : Error}

/-- A refusal of the first compilation is what the call returns. -/
theorem raised_of_refused (h : kind.ofDraft t.firstPurpose (t.draft d) = .error e)
    (hselects : t.needsSelects = false) (s : Session Q σ) (state : σ) :
    t.Raised kind d s state e := by
  intro f
  have hrefused := QueryKind.mapError_of_refused h f
  rw [call, run_refuses ⟨d, kind.mapError f, some s.recorded⟩ hrefused (state, []), hselects]
  rfl

/-- A page that was counted is refused for its rows. -/
theorem raised_page (hrows : kind.ofDraft .rows d = .error e) {s : Session Q σ} {state : σ}
    {n : Nat}
    (hcount : ((⟨d, kind, some s.recorded⟩ : Bound E κ Q _).countResults (state, [])).1 = .ok n)
    (shape : Shape T) (limit offset : Nat) :
    (page shape limit offset).Raised kind d s state e := by
  intro f
  have hcompiled : (kind.ofDraft .count d).isOk := by
    cases h : kind.ofDraft .count d with
    | ok q => rfl
    | error e' =>
      rw [Bound.countResults_refuses (b := ⟨d, kind, some s.recorded⟩) h] at hcount
      cases hcount
  have hsame := Bound.countResults_mapError (b := ⟨d, kind, some s.recorded⟩) hcompiled f
  rw [call, run_page_of_refused ⟨d, kind.mapError f, some s.recorded⟩
    (QueryKind.mapError_of_refused hrows f), hsame, hcount]
  rfl

end Terminal

/-! ## A page in an order that does not exist -/

namespace Kennel

instance : Projectable Kennel where
  target e := Schema.target id (Schema.name e) e

/-- Dogs in the order of an attribute that they do not have. -/
def unordered : Draft Kennel (ScopedCondition Kennel) :=
  (Draft.ofRoot .dog).orderBy [⟨"breed", .asc⟩]

theorem ofDraft_unordered :
    GraphQuery.ofDraft .rows unordered = .error (.attributeMissing "breed" "Dog") := rfl

/-- Dogs with a name in what is no list. -/
def unlisted : Draft Kennel String :=
  { outline := { root := .dog }, conditions := [.leaf .and (.value "name" .isIn (.string "Rex"))] }

/-- Nothing is sent for the rows of either. -/
theorem unsent_of_raised_get :
    ((Terminal.get .row : Terminal Kennel).call TextQuery.kind unlisted Script.session
      ⟨[], []⟩).2 = [] ∧
    ((Terminal.get .row : Terminal Kennel).call GraphQuery.kind unordered Script.session
      ⟨[], []⟩).2 = [] := by
  have hunlisted : TextQuery.ofDraft .rows unlisted = .error .listOperandExpected := rfl
  obtain ⟨htext, hgraph⟩ := Terminal.unsent_of_raised (E := Kennel) (.get .row : Terminal Kennel)
  exact ⟨htext _ _ _ _ (Terminal.raised_of_refused hunlisted rfl _ _),
    hgraph _ _ _ _ (Terminal.raised_of_refused ofDraft_unordered rfl _ _)⟩

/-- For a page of them, the count is sent. -/
theorem not_unsent_of_raised_page :
    (Terminal.page .row 10 0 : Terminal Kennel).Raised GraphQuery.kind unordered Script.session
      ⟨[], []⟩ (.attributeMissing "breed" "Dog") ∧
    ((Terminal.page .row 10 0 : Terminal Kennel).call GraphQuery.kind unordered Script.session
      ⟨[], []⟩).2 ≠ [] := by
  refine ⟨Terminal.raised_page ofDraft_unordered (n := 0) rfl .row 10 0, ?_⟩
  decide

end Kennel

end EntityQuery
