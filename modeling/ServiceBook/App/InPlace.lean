import ServiceBook.App.WellFormed

/-! Editing in place. `AllVehiclesI` is a class, and a row hands its own object to
the editor, so the list behind an open editor changes with the form. The machine of
`App.step` works on copies instead. The two agree: nobody looks at the row before
the list is fetched again, except for cells of the covered table. -/
namespace ServiceBook

/-- The app, and the row whose object the editor has been handed. -/
structure InPlace where
  app : App
  edited : Option (Tab × Nat) := none

/-- The object of a row, written through the editor. -/
def App.writeRow (app : App) (objVehicle : AllVehiclesI) : Tab × Nat → App
  | (.allVehicles, row) => { app with allVehiclesVC := { app.allVehiclesVC with
      arrAllVehicles := app.allVehiclesVC.arrAllVehicles.set row objVehicle } }
  | (.history, row) => { app with historyVC := { app.historyVC with
      arrAllVehicles := app.historyVC.arrAllVehicles.set row objVehicle } }
  | (.addVehicle, _) => app

/-- The row that the editor shares after an action. -/
def Action.hands (edited : Option (Tab × Nat)) : Action → Option (Tab × Nat)
  | .allVehiclesDidSelectRow row => some (.allVehicles, row)
  | .historyDidSelectRow row => some (.history, row)
  | _ => edited

namespace InPlace

/-- While the editor is there, its vehicle is the object of the row. -/
def shared (app : App) (edited : Option (Tab × Nat)) : InPlace :=
  match app.editor, edited with
  | some form, some row => { app := app.writeRow form.objVehicle row, edited := some row }
  | _, _ => { app := app }

def step (P : Platform) (inPlace : InPlace) (action : Action) : Option InPlace :=
  (inPlace.app.step P action).map fun app => shared app (action.hands inPlace.edited)

def installed (now : Date) : InPlace := { app := App.installed now }

end InPlace

/-- The app with other rows in its lists, and other cells in the History table. -/
def App.withRows (app : App) (due history : List AllVehiclesI) (cells : List (Nat × AllVehiclesI)) : App :=
  { app with
    allVehiclesVC := { app.allVehiclesVC with arrAllVehicles := due }
    historyVC := { app.historyVC with
      arrAllVehicles := history
      tableAllVehicles := { app.historyVC.tableAllVehicles with cells := cells } } }

/-- The apps differ at most in the rows of the tab that is selected, and those of
the History list fill their cells alike. -/
structure SameButRows (app other : App) : Prop where
  rows : ∃ due history cells, other = app.withRows due history cells ∧
    history.map AllVehiclesCell.setVehicle = app.historyVC.arrAllVehicles.map AllVehiclesCell.setVehicle
  due : app.selectedTab ≠ .allVehicles → other.allVehiclesVC = app.allVehiclesVC
  history : app.selectedTab ≠ .history → other.historyVC = app.historyVC

section SameButRows

variable {P : Platform} {app app' other : App} {action : Action}

theorem SameButRows.refl (app : App) : SameButRows app app :=
  ⟨⟨_, _, _, rfl, rfl⟩, fun _ => rfl, fun _ => rfl⟩

theorem SameButRows.symm (h : SameButRows app other) : SameButRows other app := by
  obtain ⟨⟨due, history, cells, rfl, hAlike⟩, hDue, hHistory⟩ := h
  exact ⟨⟨app.allVehiclesVC.arrAllVehicles, app.historyVC.arrAllVehicles, app.historyVC.tableAllVehicles.cells, rfl,
    hAlike.symm⟩, fun hTab => (hDue hTab).symm, fun hTab => (hHistory hTab).symm⟩

theorem SameButRows.editor (h : SameButRows app other) : other.editor = app.editor := by
  obtain ⟨⟨_, _, _, rfl, _⟩, _, _⟩ := h
  rfl

theorem SameButRows.placed (h : SameButRows app other) (hPlaced : FormsPlaced app) : FormsPlaced other := by
  obtain ⟨⟨_, _, _, rfl, _⟩, _, _⟩ := h
  exact ⟨hPlaced.addTab, hPlaced.editor⟩

theorem AllVehiclesVC.viewWillAppear_eq_ok :
    AllVehiclesVC.viewWillAppear.run app = .ok () app' ↔
      ∃ arrVehicles, DatabaseManager.getAllRecords app.storage.list app.context
          (some (DatabaseManager.onServiceDueDate (upcoming app.now))) = .ok arrVehicles ∧
        app' = { app with allVehiclesVC :=
          { app.allVehiclesVC.allVehiclesReceives arrVehicles with
            listeners := app.allVehiclesVC.listeners + 1 } } := by
  refine ⟨AllVehiclesVC.viewWillAppear_of_ok, ?_⟩
  rintro ⟨arrVehicles, hList, rfl⟩
  exact Program.run_bind_of_ok (AllVehiclesPresenter.getAllVehicles_eq_ok.mpr ⟨arrVehicles, hList, rfl⟩)

/-- The selected tab fetches its rows again and reloads its table. -/
theorem SameButRows.appears (h : SameButRows app other)
    (hAppear : (viewWillAppear P app.selectedTab).run app = .ok () app') :
    (viewWillAppear P app.selectedTab).run other = .ok () app' := by
  obtain ⟨⟨due, history, cells, rfl, _⟩, hDue, hHistory⟩ := h
  cases hTab : app.selectedTab with
  | allVehicles =>
      rw [hTab] at hAppear
      obtain ⟨arrVehicles, hList, rfl⟩ := AllVehiclesVC.viewWillAppear_of_ok hAppear
      refine AllVehiclesVC.viewWillAppear_eq_ok.mpr ⟨arrVehicles, hList, ?_⟩
      exact congrArg (fun historyVC : HistoryVC => ({ app with
        allVehiclesVC := { app.allVehiclesVC.allVehiclesReceives arrVehicles with
          listeners := app.allVehiclesVC.listeners + 1 }
        historyVC := historyVC } : App)) (hHistory (by simp [hTab])).symm
  | history =>
      rw [hTab] at hAppear
      obtain ⟨arrVehicles, hList, rfl⟩ := HistoryPresenter.getAllVehicles_eq_ok.mp hAppear
      refine HistoryPresenter.getAllVehicles_eq_ok.mpr ⟨arrVehicles, hList, ?_⟩
      exact congrArg (fun allVehiclesVC : AllVehiclesVC => ({ app with
        allVehiclesVC := allVehiclesVC
        historyVC := app.historyVC.allVehiclesReceives arrVehicles } : App)) (hDue (by simp [hTab])).symm
  | addVehicle =>
      have hSame : app.withRows due history cells = app :=
        (congrArg₂ (fun (allVehiclesVC : AllVehiclesVC) (historyVC : HistoryVC) =>
          ({ app with allVehiclesVC := allVehiclesVC, historyVC := historyVC } : App))
          (hDue (by simp [hTab])) (hHistory (by simp [hTab])))
      rw [hSame, ← hTab]
      exact hAppear

theorem AllVehiclesVC.snapshot_rows (vc : AllVehiclesVC) (rows : List AllVehiclesI)
    (documents : List (String × KeyedCoding.JsonObject)) :
    ({ vc with arrAllVehicles := rows } : AllVehiclesVC).snapshot documents =
      { vc.snapshot documents with arrAllVehicles := rows } := by
  unfold AllVehiclesVC.snapshot
  split <;> rfl

/-- The Due Services screen changes in a way that does not depend on its rows. -/
theorem SameButRows.onAllVehiclesVC (h : SameButRows app other) (f : AllVehiclesVC → AllVehiclesVC)
    (hRows : ∀ vc rows, f { vc with arrAllVehicles := rows } = { f vc with arrAllVehicles := rows }) :
    SameButRows { app with allVehiclesVC := f app.allVehiclesVC }
      { other with allVehiclesVC := f other.allVehiclesVC } := by
  obtain ⟨⟨due, history, cells, rfl, hAlike⟩, hDue, hHistory⟩ := h
  refine ⟨⟨due, history, cells, ?_, hAlike⟩, fun hTab => congrArg f (hDue hTab), hHistory⟩
  exact congrArg (fun allVehiclesVC : AllVehiclesVC =>
    ({ app.withRows due history cells with allVehiclesVC := allVehiclesVC } : App)) (hRows app.allVehiclesVC due)

/-- A row of the History list is there in both apps, and fills its cell alike. -/
theorem SameButRows.historyRow (h : SameButRows app other) {row : Nat} {vehicleObj : AllVehiclesI}
    (hVehicle : app.historyVC.arrAllVehicles[row]? = some vehicleObj) :
    ∃ otherObj, other.historyVC.arrAllVehicles[row]? = some otherObj ∧
      AllVehiclesCell.setVehicle otherObj = AllVehiclesCell.setVehicle vehicleObj := by
  obtain ⟨⟨due, history, cells, rfl, hAlike⟩, _, _⟩ := h
  have hRow := congrArg (fun filled => filled[row]?) hAlike
  simp only [List.getElem?_map, hVehicle, Option.map_some] at hRow
  exact Option.map_eq_some_iff.mp hRow

/-- Both apps fill the same cell of the History table, each from its own row. -/
theorem SameButRows.historyCell (h : SameButRows app other) {row : Nat} {vehicleObj otherObj : AllVehiclesI}
    (hVehicle : app.historyVC.arrAllVehicles[row]? = some vehicleObj)
    (hOther : other.historyVC.arrAllVehicles[row]? = some otherObj) :
    SameButRows
      { app with historyVC := { app.historyVC with
        tableAllVehicles := app.historyVC.tableAllVehicles.show row vehicleObj } }
      { other with historyVC := { other.historyVC with
        tableAllVehicles := other.historyVC.tableAllVehicles.show row otherObj } } := by
  obtain ⟨⟨due, history, cells, rfl, hAlike⟩, hDue, hHistory⟩ := h
  refine ⟨⟨due, history, _, rfl, hAlike⟩, hDue, fun hTab => ?_⟩
  have hSame : otherObj = vehicleObj := by
    have hRows : history = app.historyVC.arrAllVehicles := congrArg HistoryVC.arrAllVehicles (hHistory hTab)
    rw [hRows] at hOther
    exact Option.some.inj (hOther.symm.trans hVehicle)
  rw [hSame]
  exact congrArg (fun vc : HistoryVC =>
    ({ vc with tableAllVehicles := vc.tableAllVehicles.show row vehicleObj } : HistoryVC)) (hHistory hTab)

/-- What an editor has the app do does not depend on the rows behind it, and when it
is left they are fetched again. -/
theorem SameButRows.step (h : SameButRows app other) (hPlaced : FormsPlaced app) (hEditor : app.editor.isSome)
    (hStep : app.step P action = some app') :
    ∃ other', other.step P action = some other' ∧
      (app'.editor = none ∧ other' = app' ∨
        app'.editor.isSome ∧ SameButRows app' other' ∧ app'.selectedTab = app.selectedTab) := by
  obtain ⟨form, hForm⟩ := Option.isSome_iff_exists.mp hEditor
  have hOpen (hNone : app.editor = none) : False := by
    rw [hForm] at hNone
    cases hNone
  have hOffered := (step_eq_some.mp hStep).1
  have hSame := h
  obtain ⟨⟨rows, past, cells, rfl, hAlike⟩, hDue, hHistory⟩ := h
  cases step_stepped hPlaced hStep with
  | clock now hLater =>
      exact ⟨_, step_eq_some.mpr ⟨hLater, rfl⟩,
        .inr ⟨hEditor, ⟨⟨rows, past, cells, rfl, hAlike⟩, hDue, hHistory⟩, rfl⟩⟩
  | storage storage =>
      exact ⟨_, step_eq_some.mpr ⟨trivial, rfl⟩,
        .inr ⟨hEditor, ⟨⟨rows, past, cells, rfl, hAlike⟩, hDue, hHistory⟩, rfl⟩⟩
  | selectTab tab _ hNone _ => exact (hOpen hNone).elim
  | snapshot documents =>
      exact ⟨_, step_eq_some.mpr ⟨hOffered, rfl⟩, .inr ⟨hEditor,
        hSame.onAllVehiclesVC (·.snapshot documents) fun vc rows => vc.snapshot_rows rows documents, rfl⟩⟩
  | noCell row hEmpty =>
      exact ⟨_, step_eq_some.mpr ⟨hOffered, AllVehiclesVC.cellForRowAt_run_empty hEmpty⟩,
        .inr ⟨hEditor, hSame, rfl⟩⟩
  | allVehiclesCell row gadgetObj hGadget =>
      have hRun := (AllVehiclesVC.cellForRowAt_run hGadget).symm.trans (step_eq_some.mp hStep).2
      obtain ⟨_, _, hData, _⟩ := Program.bind_eq_ok.mp hRun
      obtain ⟨hData, _⟩ := Program.ofExcept_eq_ok.mp hData
      have hOther : (AllVehiclesVC.cellForRowAt row).run (app.withRows rows past cells) = _ :=
        AllVehiclesVC.cellForRowAt_run hGadget
      rw [hData] at hOther
      exact ⟨_, step_eq_some.mpr ⟨hOffered, hOther⟩, .inr ⟨hEditor,
        hSame.onAllVehiclesVC (fun vc => { vc with tableAllVehicles := vc.tableAllVehicles.show row gadgetObj })
          fun _ _ => rfl, rfl⟩⟩
  | allVehiclesDelete _ _ _ _ _ _ hShows => exact (hOpen hShows.2).elim
  | allVehiclesSelect _ _ _ _ hShows => exact (hOpen hShows.2).elim
  | historyCell row vehicleObj hVehicle =>
      have hRun := (HistoryVC.cellForRowAt_run hVehicle).symm.trans (step_eq_some.mp hStep).2
      obtain ⟨_, _, hData, _⟩ := Program.bind_eq_ok.mp hRun
      obtain ⟨hData, _⟩ := Program.ofExcept_eq_ok.mp hData
      obtain ⟨otherObj, hOther, hFills⟩ := hSame.historyRow hVehicle
      have hOtherRun : (HistoryVC.cellForRowAt row).run (app.withRows rows past cells) = _ :=
        HistoryVC.cellForRowAt_run hOther
      rw [hFills, hData] at hOtherRun
      exact ⟨_, step_eq_some.mpr ⟨hOffered, hOtherRun⟩, .inr ⟨hEditor, hSame.historyCell hVehicle hOther, rfl⟩⟩
  | historyDelete _ _ _ _ _ hShows => exact (hOpen hShows.2).elim
  | historySelect _ _ _ hShows => exact (hOpen hShows.2).elim
  | form _ e _ _ _ _ =>
      obtain ⟨slot, form, form', hSlot, hActive, hEvent, hHandle, hEnd⟩ := form_step hStep
      rw [hEnd]
      obtain rfl : slot = .editor := Option.some.inj (hSlot.symm.trans (activeForm_eq_editor.mpr hEditor))
      refine ⟨_, step_eq_some.mpr ⟨hOffered, ?_⟩,
        .inr ⟨rfl, ⟨⟨rows, past, cells, rfl, hAlike⟩, hDue, hHistory⟩, rfl⟩⟩
      have hOtherSlot : (app.withRows rows past cells).activeForm = some .editor := hSlot
      have hOtherForm : (app.withRows rows past cells).editor = some form := hActive
      rw [handle, Program.run_get_bind, hOtherSlot]
      dsimp only
      rw [formEvent, Program.run_get_bind, App.form_editor, hOtherForm]
      dsimp only
      rw [hHandle]
      rfl
  | saveAdd _ _ _ _ _ _ _ _ _ hShows => exact (hOpen hShows.2).elim
  | saveEdit uuid editor objVehicle text gadgetObj context success gadget due request _ hOpened hRule hGadget hEdit
      hUpdate hSet hRequest hAppear =>
      have hSlot : (app.withRows rows past cells).activeForm = some .editor := activeForm_eq_editor.mpr hEditor
      have hRun : (AddVehicleVC.clkSave P .editor uuid).run (app.withRows rows past cells) = _ :=
        clkSave_editor_run hOpened (hPlaced.editor editor hOpened) hRule hGadget hEdit hUpdate hSet hRequest
      have hSame : SameButRows { app with
          context := context
          outbox := app.outbox ++ FIRFireStoreService.update gadget
          told := app.told ++ [.vehicleInfoUpdated true]
          pendingRequests := (app.pendingRequests.remove [objVehicle.vehicleID]).add app.now request
          editor := none } _ := ⟨⟨rows, past, cells, rfl, hAlike⟩, hDue, hHistory⟩
      refine ⟨app', step_eq_some.mpr ⟨hOffered, ?_⟩, .inl ⟨(viewWillAppear_refreshed hAppear).editor, rfl⟩⟩
      rw [handle, Program.run_get_bind, hSlot]
      exact hRun.trans (hSame.appears hAppear)
  | back editor _ hOpened hAppear =>
      have hOther : (app.withRows rows past cells).editor = some editor := hOpened
      have hSame : SameButRows { app with editor := none } _ := ⟨⟨rows, past, cells, rfl, hAlike⟩, hDue, hHistory⟩
      refine ⟨app', step_eq_some.mpr ⟨hOffered, ?_⟩, .inl ⟨(viewWillAppear_refreshed hAppear).editor, rfl⟩⟩
      rw [handle, AddVehicleVC.clkBack, popViewController, Program.run_get_bind, hOther]
      exact hSame.appears hAppear
  | relaunch context _ hSave hAppear =>
      have hOther : saveContext (app.withRows rows past cells).storage.write (app.withRows rows past cells).context =
        .ok context := hSave
      refine ⟨app', step_eq_some.mpr ⟨hOffered, ?_⟩, .inl ⟨(viewWillAppear_refreshed hAppear).editor, rfl⟩⟩
      rw [handle, relaunch, Program.run_get_bind, hOther]
      exact hAppear

/-- Writing a row that fills its cell alike. -/
theorem SameButRows.writeRow (h : SameButRows app other) {objVehicle : AllVehiclesI} {row : Nat}
    (hFills : app.selectedTab = .history → ∀ vehicleObj ∈ app.historyVC.arrAllVehicles[row]?,
      AllVehiclesCell.setVehicle objVehicle = AllVehiclesCell.setVehicle vehicleObj) :
    SameButRows app (other.writeRow objVehicle (app.selectedTab, row)) := by
  obtain ⟨⟨due, history, cells, rfl, hAlike⟩, hDue, hHistory⟩ := h
  cases hTab : app.selectedTab with
  | allVehicles =>
      exact ⟨⟨due.set row objVehicle, history, cells, rfl, hAlike⟩, fun hOther => absurd hTab hOther, hHistory⟩
  | history =>
      refine ⟨⟨due, history.set row objVehicle, cells, rfl, ?_⟩, hDue, fun hOther => absurd hTab hOther⟩
      rw [List.map_set, hAlike]
      apply List.ext_getElem?
      intro place
      rw [List.getElem?_set, List.getElem?_map, List.length_map]
      split
      · next hPlace =>
          rw [← hPlace]
          cases hRow : app.historyVC.arrAllVehicles[row]? with
          | none => rw [if_neg (by simpa using hRow), Option.map_none]
          | some vehicleObj =>
              rw [if_pos (List.getElem?_eq_some_iff.mp hRow).1, Option.map_some, hFills hTab vehicleObj hRow]
      · rfl
  | addVehicle => exact ⟨⟨due, history, cells, rfl, hAlike⟩, hDue, hHistory⟩

end SameButRows

/-- What the row of an editor needs to fill its cell, beyond what every form has. -/
def AddVehicleVC.KeepsRow (form : AddVehicleVC) : Prop :=
  form.isRecordEdit = true → form.objVehicle.notes.isSome ∧ form.objVehicle.serviceDueDate.isSome

section KeepsRow

variable {P : Platform} {form form' : AddVehicleVC}

/-- No event of a form stores notes or a due date. -/
theorem AddVehicleVC.InStep.notes_handle (h : AddVehicleVC.InStep P form) {e : AddVehicleVC.Event}
    (hHandle : AddVehicleVC.handle P form e = .ok form') :
    form'.objVehicle.notes = form.objVehicle.notes ∧
      form'.objVehicle.serviceDueDate = form.objVehicle.serviceDueDate := by
  have hKept : form'.picked.2.2 = form.picked.2.2 := by
    rcases h.picked_handle hHandle with hSame | ⟨_, _, hSame⟩ | ⟨_, hSame⟩ <;> rw [hSame]
  exact Prod.mk.inj hKept

/-- The editor of a vehicle has the vehicle's notes and due date. -/
theorem AddVehicleVC.notes_appear {now : Date} {objVehicle : AllVehiclesI} {gadget : Option Gadget}
    (hAppear : AddVehicleVC.appear P (AddVehicleVC.editForm now objVehicle gadget) = .ok form) :
    form.objVehicle.notes = objVehicle.notes ∧ form.objVehicle.serviceDueDate = objVehicle.serviceDueDate := by
  obtain ⟨_, _, hCell⟩ := (AddVehicleVC.appear_edit rfl).mp hAppear
  obtain ⟨_, _, _, _, _, _, rfl⟩ := AddVehicleVC.cellForRowAt_eq_ok.mp hCell
  exact ⟨rfl, rfl⟩

theorem keepsRow_rule : RoundRule P AddVehicleVC.KeepsRow (SavedVehicle P) where
  typed := fun _ h => h.vehicleType
  forms :=
    { added := fun now hEdit => by cases hEdit
      reset := by
        intro form form' _ hAdd hReload hEdit
        rw [(AddVehicleVC.sameRecord_cellForRowAt hReload).isRecordEdit] at hEdit
        exact absurd hEdit (by simp [hAdd])
      opened := by
        intro now objVehicle gadget form' h hAppear _
        obtain ⟨hNotes, hDue⟩ := AddVehicleVC.notes_appear hAppear
        obtain ⟨_, hText, _⟩ := h.notes
        rw [hNotes, hDue, hText]
        exact ⟨rfl, h.hasDates.2⟩
      handled := by
        intro form e form' h hInStep _ hHandle hEdit
        rw [(AddVehicleVC.handle_sameRecord hHandle).isRecordEdit] at hEdit
        obtain ⟨hNotes, hDue⟩ := hInStep.notes_handle hHandle
        rw [hNotes, hDue]
        exact h hEdit }
  saved := fun _ _ _ _ _ hRule => savedVehicle_of_rule hRule

theorem AddVehicleVC.InStep.hasFields (h : AddVehicleVC.InStep P form) (hKeeps : form.KeepsRow)
    (hEdit : form.isRecordEdit = true) : form.objVehicle.HasFields := by
  refine ⟨(hKeeps hEdit).2, (hKeeps hEdit).1, h.vehicleNo.1, h.vehicleName.1, ?_⟩
  rw [h.vehicleType]
  rfl

end KeepsRow

namespace InPlace

variable {P : Platform} {inPlace : InPlace} {app app' other : App} {action : Action} {edited : Option (Tab × Nat)}

/-- The apps are the same, but for the rows behind an open editor. -/
def Agree (inPlace : InPlace) (app : App) : Prop :=
  SameButRows app inPlace.app ∧ (app.editor = none → inPlace.app = app)

/-- The History row that is shared with an editor has the notes of its form. -/
def RowNoted (app : App) (edited : Option (Tab × Nat)) : Prop :=
  ∀ row form objVehicle, edited = some (.history, row) → app.editor = some form →
    app.historyVC.arrAllVehicles[row]? = some objVehicle → objVehicle.notes = form.objVehicle.notes

structure Edits (P : Platform) (inPlace : InPlace) (app : App) : Prop where
  around : Around P AddVehicleVC.KeepsRow (SavedVehicle P) app
  agree : Agree inPlace app
  edited : ∀ row ∈ inPlace.edited, app.editor.isSome ∧ row.1 = app.selectedTab
  noted : RowNoted app inPlace.edited

theorem rowNoted_of_closed (hClosed : app.editor = none) : RowNoted app edited := by
  intro row form objVehicle _ hForm _
  cases hClosed.symm.trans hForm

/-- The list behind the editor stays, and so do the notes of the form. -/
theorem RowNoted.step (h : RowNoted app edited) (hSound : Sound P app) (hStep : app.step P action = some app') :
    RowNoted app' (action.hands edited) := by
  cases step_stepped hSound.placed hStep with
  | selectTab tab _ hNone hAppear => exact rowNoted_of_closed ((viewWillAppear_refreshed hAppear).editor.trans hNone)
  | allVehiclesSelect row vehicleObj gadgetObj form _ _ _ _ =>
      rintro _ _ _ ⟨⟩
  | historyDelete row objVehicle context success arrVehicles hShows _ _ _ => exact rowNoted_of_closed hShows.2
  | historySelect row vehicleObj form _ hVehicle hAppear =>
      rintro _ _ objVehicle ⟨⟩ ⟨⟩ hRow
      obtain rfl := Option.some.inj (hVehicle.symm.trans hRow)
      exact (AddVehicleVC.notes_appear hAppear).1.symm
  | form slot e form form' hForm hHandle =>
      cases slot with
      | addTab => exact h
      | editor =>
          rintro row _ objVehicle hEdited ⟨⟩ hRow
          rw [((hSound.forms .editor form hForm).notes_handle hHandle).1]
          exact h row form objVehicle hEdited hForm hRow
  | saveEdit uuid form objVehicle text gadgetObj context success gadget due request _ _ _ _ _ _ _ _ hAppear =>
      exact rowNoted_of_closed (viewWillAppear_refreshed hAppear).editor
  | back form _ _ hAppear => exact rowNoted_of_closed (viewWillAppear_refreshed hAppear).editor
  | relaunch context _ _ hAppear => exact rowNoted_of_closed (viewWillAppear_refreshed hAppear).editor
  | _ => exact h

/-- Without an editor nothing is shared. -/
theorem edits_of_closed (hAround : Around P AddVehicleVC.KeepsRow (SavedVehicle P) app)
    (hClosed : app.editor = none) : Edits P (shared app edited) app := by
  have hShared : shared app edited = { app := app } := by
    unfold shared
    rw [hClosed]
  rw [hShared]
  exact ⟨hAround, ⟨.refl app, fun _ => rfl⟩, fun row hNone => (by cases hNone), rowNoted_of_closed hClosed⟩

theorem edits_of_open (hAround : Around P AddVehicleVC.KeepsRow (SavedVehicle P) app) (hOpen : app.editor.isSome)
    (hSame : SameButRows app other) (hTab : ∀ row ∈ edited, row.1 = app.selectedTab)
    (hNoted : RowNoted app edited) :
    Edits P (shared other edited) app := by
  obtain ⟨form, hForm⟩ := Option.isSome_iff_exists.mp hOpen
  have hClosed (hNone : app.editor = none) : (shared other edited).app = app := by
    rw [hForm] at hNone
    cases hNone
  have hOther : other.editor = some form := by
    obtain ⟨_, _, _, rfl, _⟩ := hSame.rows
    exact hForm
  cases edited with
  | none =>
      have hShared : shared other none = { app := other } := by
        unfold shared
        rw [hOther]
      rw [hShared] at hClosed ⊢
      exact ⟨hAround, ⟨hSame, hClosed⟩, fun row hNone => (by cases hNone), hNoted⟩
  | some edited =>
      obtain ⟨tab, row⟩ := edited
      obtain rfl : tab = app.selectedTab := hTab _ rfl
      have hShared : shared other (some (app.selectedTab, row)) =
          { app := other.writeRow form.objVehicle (app.selectedTab, row)
            edited := some (app.selectedTab, row) } := by
        unfold shared
        rw [hOther]
      rw [hShared] at hClosed ⊢
      have hFields := (hAround.sound.forms .editor form hForm).hasFields (hAround.forms .editor form hForm)
        (hAround.sound.placed.editor form hForm)
      refine ⟨hAround, ⟨hSame.writeRow fun hHistory vehicleObj hRow => ?_, hClosed⟩, fun other hMem => ?_, hNoted⟩
      · have hListed := hAround.lists.history vehicleObj (List.mem_of_getElem? hRow)
        have hNotes := hNoted row form vehicleObj (by rw [hHistory]) hForm hRow
        exact AllVehiclesCell.setVehicle_congr hFields hListed.hasFields hNotes.symm
      · obtain rfl := Option.some.inj hMem
        exact ⟨hOpen, rfl⟩

/-- Only a tap on a row of the tab on the screen hands an object over. -/
theorem Edits.hands (h : Edits P inPlace app) (hStep : app.step P action = some app')
    (hKept : app.editor.isSome → app'.selectedTab = app.selectedTab) :
    ∀ row ∈ action.hands inPlace.edited, row.1 = app'.selectedTab := by
  intro handed hMem
  have hOld (hMem : handed ∈ inPlace.edited) : handed.1 = app'.selectedTab := by
    obtain ⟨hOpen, hTab⟩ := h.edited handed hMem
    rw [hKept hOpen]
    exact hTab
  cases step_stepped h.around.sound.placed hStep with
  | allVehiclesSelect row vehicleObj gadgetObj form hShows _ _ _ =>
      obtain rfl := Option.some.inj hMem
      exact hShows.1.symm
  | historySelect row vehicleObj form hShows _ _ =>
      obtain rfl := Option.some.inj hMem
      exact hShows.1.symm
  | _ => exact hOld hMem

theorem Edits.step (h : Edits P inPlace app) (action : Action) :
    Option.Rel (Edits P) (inPlace.step P action) (app.step P action) := by
  obtain ⟨hSame, hClosed⟩ := h.agree
  have hPlaced := h.around.sound.placed
  unfold InPlace.step
  cases hEditor : app.editor with
  | none =>
      rw [hClosed hEditor]
      cases hStep : app.step P action with
      | none => exact .none
      | some app' =>
          have hAround := h.around.step keepsRow_rule hStep
          refine .some ?_
          cases hNext : app'.editor with
          | none => exact edits_of_closed hAround hNext
          | some form =>
              refine edits_of_open hAround (by rw [hNext]; rfl) (.refl app') (h.hands hStep fun hOpen => ?_)
                (h.noted.step h.around.sound hStep)
              rw [hEditor] at hOpen
              cases hOpen
  | some form =>
      have hOpen : app.editor.isSome := by
        rw [hEditor]
        rfl
      cases hStep : app.step P action with
      | none =>
          -- what the rows allow to complete, the copies would allow as well
          cases hOther : inPlace.app.step P action with
          | none => exact .none
          | some other =>
              have hOtherOpen : inPlace.app.editor.isSome := hSame.editor ▸ hOpen
              obtain ⟨_, hBack, _⟩ :=
                hSame.symm.step (hSame.placed hPlaced) hOtherOpen hOther
              cases hStep.symm.trans hBack
      | some app' =>
          have hAround := h.around.step keepsRow_rule hStep
          obtain ⟨other, hOther, hEnd⟩ := hSame.step hPlaced hOpen hStep
          rw [hOther]
          refine .some ?_
          rcases hEnd with ⟨hNext, rfl⟩ | ⟨hNext, hSameNext, hTab⟩
          · exact edits_of_closed hAround hNext
          · exact edits_of_open hAround hNext hSameNext (h.hands hStep fun _ => hTab)
              (h.noted.step h.around.sound hStep)

/-- Editing the objects of the lists in place, the app completes the same actions as
with copies, and ends in the same state but for the rows behind an open editor. -/
theorem agree_of_run (P : Platform) (now : Date) (actions : List Action) :
    Option.Rel Agree (Transition.run (InPlace.step P) (installed now) actions)
      (Transition.run (App.step P) (App.installed now) actions) := by
  have hInstalled : Edits P (shared (App.installed now) none) (App.installed now) :=
    edits_of_closed (around_installed keepsRow_rule now) rfl
  have hStep (inPlace : InPlace) (app : App) (action action' : Action) (h : Edits P inPlace app)
      (hSame : action = action') : Option.Rel (Edits P) (inPlace.step P action) (app.step P action') :=
    hSame ▸ h.step action
  have hRun : Option.Rel (Edits P) (Transition.run (InPlace.step P) (installed now) actions)
      (Transition.run (App.step P) (App.installed now) actions) :=
    Transition.run_rel hStep (List.forall₂_refl actions) hInstalled
  generalize Transition.run (InPlace.step P) (installed now) actions = left at hRun ⊢
  generalize Transition.run (App.step P) (App.installed now) actions = right at hRun ⊢
  cases hRun with
  | none => exact .none
  | some h => exact .some h.agree

end InPlace

end ServiceBook
