import ServiceBook.General.Transition
import ServiceBook.General.KeyedList
import ServiceBook.General.Table
import ServiceBook.General.BinaryFloat
import ServiceBook.General.SortedMap
import ServiceBook.Interface.AllVehiclesI
import ServiceBook.Utilities.DueDate
import ServiceBook.Database.Context
import ServiceBook.Database.DatabaseManager
import ServiceBook.Database.Refinement
import ServiceBook.Database.FailedSave
import ServiceBook.General.KeyedCoding
import ServiceBook.FirebaseIntegration.Gadget
import ServiceBook.FirebaseIntegration.FIRFireStoreService
import ServiceBook.FirebaseIntegration.Refinement
import ServiceBook.AddEditVehicle.AddVehicleVC
import ServiceBook.AddEditVehicle.Save
import ServiceBook.App.State
import ServiceBook.AllVehicles.AllVehiclesVC
import ServiceBook.AddEditVehicle.Presenter
import ServiceBook.App.FailedWrite
import ServiceBook.App.Step
import ServiceBook.AllVehicles.DueTable
import ServiceBook.AllVehicles.FollowUp
import ServiceBook.App.Addressing
import ServiceBook.System.Books
import ServiceBook.System.Site
import ServiceBook.System.Bookkeeping
import ServiceBook.System.Mirror
import ServiceBook.General.StableSort
import ServiceBook.System.Alignment
import ServiceBook.System.Network
import ServiceBook.Database.Completion
import ServiceBook.Database.Contents
import ServiceBook.App.Written
import ServiceBook.App.DueSplit
import ServiceBook.Utilities.DueDays
import ServiceBook.App.DueOrder
import ServiceBook.App.Shown
import ServiceBook.App.Records
import ServiceBook.App.Reminders
import ServiceBook.HistoryBook.HistoryRows
import ServiceBook.AddEditVehicle.InStep
import ServiceBook.App.Forms
import ServiceBook.AddEditVehicle.Pickers
import ServiceBook.App.Identity
import ServiceBook.AddEditVehicle.StoredForm
import ServiceBook.AddEditVehicle.Reopen
import ServiceBook.System.Deletion
import ServiceBook.AddEditVehicle.Documents
import ServiceBook.System.Snapshots
import ServiceBook.App.Listing
import ServiceBook.System.Convergence
import ServiceBook.App.Durability
import ServiceBook.App.Saves
import ServiceBook.App.Sound
import ServiceBook.App.Traps
import ServiceBook.App.Process
import ServiceBook.App.WellFormed
import ServiceBook.System.Fleet
import ServiceBook.App.InPlace
import ServiceBook.AllVehicles.AllVehiclesCell
import ServiceBook.System.Notes
import ServiceBook.FirebaseIntegration.Canonical
import ServiceBook.AddEditVehicle.PickerViews
