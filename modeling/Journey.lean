import Journey.RoundTrip
import Journey.PhotoCompletion
import Journey.TableAgreement
import Journey.Isolation
import Journey.Convergence
import Journey.Reentry
import Journey.Pairing
import Journey.Ownership
import Journey.Screens
import Journey.DisplayName
import Journey.CharacterLimit
import Journey.Observers
import Journey.RowDeletion
import Journey.CellPool
import Journey.Registration
import Journey.Header
import Journey.Draft
import Journey.Crashes
import Journey.Provenance
import Journey.Photos
import Journey.ProfilePhoto
import Journey.DiskCache
import Journey.Theme
import Journey.FNextPushId
