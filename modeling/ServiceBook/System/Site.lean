import ServiceBook.App.Step

/-! One installation and the collection it writes to. All storage operations
succeed, and the requests of an action reach the server before the next one. -/
namespace ServiceBook

structure Site where
  app : App
  server : Collection
  /-- The document id and the vehicle id of every addition so far. -/
  added : List (String × String)
  /-- When the Due Services list was last fetched. -/
  queriedAt : Date

namespace Site

/-- An action of the installation, with the id that Firestore would pick for a
new document, or the delivery of the current snapshot. -/
inductive Event where
  | act (action : Action) (documentID : String)
  | deliver

/-- Fresh ids have never been used before. -/
def Admits (site : Site) (action : Action) (documentID : String) : Prop :=
  match action with
  | .storage _ => False
  | .snapshot _ => False
  | .clkSave uuid => site.app.activeForm = some .addTab →
      documentID ∉ site.added.map Prod.fst ∧ uuid ∉ site.added.map Prod.snd
  | _ => True

instance (site : Site) (action : Action) (documentID : String) : Decidable (site.Admits action documentID) := by
  apply action.casesOn (motive := fun action => Decidable (site.Admits action documentID)) <;>
    intros <;> unfold Admits <;> infer_instance

/-- The addition that an action makes. -/
def additions (site : Site) (action : Action) (documentID : String) : List (String × String) :=
  match action with
  | .clkSave uuid => if site.app.activeForm = some .addTab then [(documentID, uuid)] else []
  | _ => []

/-- The actions that bring the Due Services list up to date. -/
def Queries (app : App) : Action → Prop
  | .selectTab tab => tab = .allVehicles
  | .allVehiclesCommitDelete _ => True
  | .clkSave _ => app.editor.isSome ∧ app.selectedTab = .allVehicles
  | .clkBack => app.selectedTab = .allVehicles
  | .relaunch => True
  | _ => False

instance (app : App) (action : Action) : Decidable (Queries app action) := by
  apply action.casesOn (motive := fun action => Decidable (Queries app action)) <;>
    intros <;> unfold Queries <;> infer_instance

/-- The requests reach the server. -/
def settle (site : Site) (action : Action) (documentID : String) (app : App) : Site where
  app := { app with outbox := [] }
  server := app.outbox.foldl (FirestoreWrite.apply documentID) site.server
  added := site.added ++ site.additions action documentID
  queriedAt := if Queries site.app action then app.now else site.queriedAt

def step (P : Platform) (site : Site) : Event → Option Site
  | .act action documentID =>
      if site.Admits action documentID then
        (site.app.step P action).map (site.settle action documentID)
      else none
  | .deliver =>
      (site.app.step P (.snapshot site.server.entries)).map fun app => { site with app := app }

/-- A fresh installation with an empty collection. -/
def installed (now : Date) : Site := ⟨App.installed now, .empty, [], now⟩

variable {P : Platform} {site site' : Site} {action : Action} {documentID : String}

theorem step_act : site.step P (.act action documentID) = some site' ↔
    site.Admits action documentID ∧
      ∃ app, site.app.step P action = some app ∧ site.settle action documentID app = site' := by
  rw [step]
  split
  · next hAdmits => simp [hAdmits]
  · next hAdmits => simp [hAdmits]

end Site

end ServiceBook
