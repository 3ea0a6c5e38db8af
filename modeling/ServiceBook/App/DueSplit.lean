import ServiceBook.App.Written

/-! The Due Services list and the History list, which two presenters query
independently, split the stored vehicles at the instant of the query. -/
namespace ServiceBook

/-- The list that the presenter obtains when it is asked at an instant and the
fetch succeeds. -/
def AllVehiclesPresenter.listAt (app : App) (t : Date) : Except Trap (List AllVehiclesI) :=
  match AllVehiclesPresenter.getAllVehicles.run { app with now := t, storage := {} } with
  | .ok _ app' => .ok app'.allVehiclesVC.arrAllVehicles
  | .error trap _ => .error trap

def HistoryPresenter.listAt (app : App) (t : Date) : Except Trap (List AllVehiclesI) :=
  match HistoryPresenter.getAllVehicles.run { app with now := t, storage := {} } with
  | .ok _ app' => .ok app'.historyVC.arrAllVehicles
  | .error trap _ => .error trap

/-- Two sorted lists that share the vehicles out at a due date. -/
structure Splits (all due history : List AllVehiclesI) : Prop where
  complete : (due ++ history).Perm all
  dueSorted : due.Pairwise (byDueDate AllVehiclesI.serviceDueDate)
  historySorted : history.Pairwise (byDueDate AllVehiclesI.serviceDueDate)
  earlier : ∀ old ∈ history, ∀ objVehicle ∈ due, ∃ past coming,
    old.serviceDueDate = some past ∧ objVehicle.serviceDueDate = some coming ∧ past < coming

/-- The two lists split the stored vehicles at every instant, and as time goes
on vehicles pass from the one to the other only. -/
def SplitsByDate (app : App) : Prop :=
  ∃ (all : List AllVehiclesI) (due history : Date → List AllVehiclesI),
    app.context.objects.values.mapM DatabaseManager.allVehicleOf = .ok all ∧
    (∀ t, AllVehiclesPresenter.listAt app t = .ok (due t)) ∧
    (∀ t, HistoryPresenter.listAt app t = .ok (history t)) ∧
    (∀ t, Splits all (due t) (history t)) ∧
    ∀ t₁ t₂, t₁ ≤ t₂ →
      (∀ objVehicle ∈ history t₁, objVehicle ∈ history t₂) ∧
        ∀ objVehicle ∈ all, objVehicle ∈ due t₁ ∨ objVehicle ∈ history t₂

section Predicates

variable {t t₁ t₂ : Date} {due : Option Date}

/-- Every vehicle that is due at all is either upcoming or past due. -/
theorem pastDue_eq_not_upcoming (h : due.isSome) : pastDue t due = !upcoming t due := by
  obtain ⟨serviceDueDate, rfl⟩ := Option.isSome_iff_exists.mp h
  rw [pastDue, upcoming, ← decide_not, decide_eq_decide, not_le]

theorem upcoming_or_pastDue (h : due.isSome) (hLater : t₁ ≤ t₂) :
    upcoming t₁ due = true ∨ pastDue t₂ due = true := by
  cases hUpcoming : upcoming t₁ due with
  | true => exact Or.inl rfl
  | false => exact Or.inr (pastDue_mono hLater (by rw [pastDue_eq_not_upcoming h, hUpcoming]; rfl))

end Predicates

section Lists

variable {app : App} {t : Date} {entries : List AllVehiclesI} {objVehicle : AllVehiclesI}
  {predicate : Option Date → Bool}

theorem AllVehiclesPresenter.listAt_eq {arrVehicles : List AllVehiclesI}
    (h : DatabaseManager.getAllRecords .success app.context
      (some (DatabaseManager.onServiceDueDate (upcoming t))) = .ok arrVehicles) :
    AllVehiclesPresenter.listAt app t = .ok arrVehicles := by
  rw [listAt, AllVehiclesPresenter.getAllVehicles_eq_ok.mpr ⟨arrVehicles, h, rfl⟩]
  rfl

theorem HistoryPresenter.listAt_eq {arrVehicles : List AllVehiclesI}
    (h : DatabaseManager.getAllRecords .success app.context
      (some (DatabaseManager.onServiceDueDate (pastDue t))) = .ok arrVehicles) :
    HistoryPresenter.listAt app t = .ok arrVehicles := by
  rw [listAt, HistoryPresenter.getAllVehicles_eq_ok.mpr ⟨arrVehicles, h, rfl⟩]
  rfl

/-- The entries with a matching due date, in due-date order. -/
def listedWhere (entries : List AllVehiclesI) (predicate : Option Date → Bool) : List AllVehiclesI :=
  (entries.filter fun objVehicle => predicate objVehicle.serviceDueDate).insertionSort
    (byDueDate AllVehiclesI.serviceDueDate)

theorem mem_listedWhere :
    objVehicle ∈ listedWhere entries predicate ↔
      objVehicle ∈ entries ∧ predicate objVehicle.serviceDueDate = true := by
  rw [listedWhere, List.mem_insertionSort, List.mem_filter]

theorem splits_listedWhere (hDated : ∀ objVehicle ∈ entries, objVehicle.serviceDueDate.isSome) (t : Date) :
    Splits entries (listedWhere entries (upcoming t)) (listedWhere entries (pastDue t)) where
  complete := by
    have hRest : entries.filter (fun objVehicle => pastDue t objVehicle.serviceDueDate) =
        entries.filter fun objVehicle => !upcoming t objVehicle.serviceDueDate :=
      List.filter_congr fun objVehicle hMem => pastDue_eq_not_upcoming (hDated objVehicle hMem)
    calc _ = listedWhere entries (upcoming t) ++ listedWhere entries (pastDue t) := rfl
      List.Perm _ (entries.filter (fun objVehicle => upcoming t objVehicle.serviceDueDate) ++
          entries.filter fun objVehicle => !upcoming t objVehicle.serviceDueDate) := by
        rw [← hRest]
        exact (List.perm_insertionSort _ _).append (List.perm_insertionSort _ _)
      List.Perm _ entries := List.filter_append_perm _ entries
  dueSorted := List.pairwise_insertionSort _ _
  historySorted := List.pairwise_insertionSort _ _
  earlier := by
    intro old hOld objVehicle hDue
    obtain ⟨hOldMem, hPast⟩ := mem_listedWhere.mp hOld
    obtain ⟨hMem, hComing⟩ := mem_listedWhere.mp hDue
    obtain ⟨past, hPastDate⟩ := Option.isSome_iff_exists.mp (hDated old hOldMem)
    obtain ⟨coming, hComingDate⟩ := Option.isSome_iff_exists.mp (hDated objVehicle hMem)
    rw [hPastDate] at hPast
    rw [hComingDate] at hComing
    exact ⟨past, coming, hPastDate, hComingDate, (of_decide_eq_true hPast).trans_le (of_decide_eq_true hComing)⟩

/-- A store that holds typed and dated vehicles is split. -/
theorem splitsByDate_of_contains
    (h : DatabaseManager.Contains (fun v => v.vehicleType.isSome ∧ v.serviceDueDate.isSome) app.context) :
    SplitsByDate app := by
  obtain ⟨entries, hObjects, hAll⟩ := h.entries
  have hTyped : ∀ v ∈ entries, v.vehicleType.isSome ∧ DatabaseManager.Narrow v :=
    fun v hv => ⟨(hAll v hv).2.1, (hAll v hv).1⟩
  have hDated : ∀ v ∈ entries, v.serviceDueDate.isSome := fun v hv => (hAll v hv).2.2
  have hQuery (predicate : Option Date → Bool) :=
    DatabaseManager.getAllRecords_of_entries hObjects hTyped (some predicate)
  refine ⟨entries, fun t => listedWhere entries (upcoming t), fun t => listedWhere entries (pastDue t),
    DatabaseManager.mapM_allVehicleOf hObjects hTyped,
    fun t => AllVehiclesPresenter.listAt_eq (hQuery (upcoming t)),
    fun t => HistoryPresenter.listAt_eq (hQuery (pastDue t)), splits_listedWhere hDated, ?_⟩
  intro t₁ t₂ hLater
  constructor
  · intro v hv
    obtain ⟨hMem, hPast⟩ := mem_listedWhere.mp hv
    exact mem_listedWhere.mpr ⟨hMem, pastDue_mono hLater hPast⟩
  · intro v hv
    rcases upcoming_or_pastDue (hDated v hv) hLater with hUpcoming | hPast
    · exact Or.inl (mem_listedWhere.mpr ⟨hv, hUpcoming⟩)
    · exact Or.inr (mem_listedWhere.mpr ⟨hv, hPast⟩)

end Lists

/-- In every state of every run of the app, the two lists split the stored
vehicles by due date, at every instant. -/
theorem due_and_history_split (P : Platform) (now : Date) (actions : List Action) :
    Transition.Always (App.step P) SplitsByDate (App.installed now) actions := by
  refine (contains_run (Transition.throughout_of_forall fun action _ app objVehicle hSaves _ => ?_)).mono
    fun app h => splitsByDate_of_contains h
  -- the due-date rule has set the date, and Save the type
  obtain ⟨uuid, slot, form, text, rfl, _, _, hRule⟩ := hSaves
  obtain ⟨due, rfl⟩ := AppSharedInstance.getServiceDueDate_sets hRule
  exact ⟨rfl, rfl⟩

end ServiceBook
