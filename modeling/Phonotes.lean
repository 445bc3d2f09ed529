import Phonotes.CollectionView
import Phonotes.Editing
import Phonotes.LastTap
import Phonotes.LibraryChanges
import Phonotes.Notebook
import Phonotes.SaveReport
import Phonotes.SerialUse
import Phonotes.Highlights
import Phonotes.Pictures
import Phonotes.Placeholder
import Phonotes.Keyboard
import Phonotes.Selections
import Phonotes.CellTraffic
import Phonotes.Captions
import Phonotes.Sessions
import Phonotes.CellViews
import Phonotes.Library.KeyedRows
import Phonotes.ObjectStore
import Phonotes.NoteRows
import Phonotes.Requests
import Phonotes.ScreenLayout
import Phonotes.Typing
import Phonotes.Library.Sequences
import Phonotes.ObjectTables
import Phonotes.TableMigration
import Phonotes.SchemaRuns
import Phonotes.SchemaColumns
