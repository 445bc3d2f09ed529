import Mathlib.Data.Rat.Defs

/-!
The values of Foundation, UIKit and Photos that the app passes around.

None of this is the app's own code. An image is kept as what it was made from:
the asset, size and content mode of the request that delivered it, or the name
it has in the asset catalog. The pixels are never read by the app.
-/

namespace Phonotes

/-- A cell's position. The collection view has one section, so the item is the
whole path. -/
structure IndexPath where
  item : Nat
  deriving DecidableEq, Repr

namespace IndexPath

/-- `row` and `item` name the same number. -/
def row (indexPath : IndexPath) : Nat := indexPath.item

@[simp] theorem row_eq_item (indexPath : IndexPath) : indexPath.row = indexPath.item := rfl

theorem item_ne_of_ne {indexPath other : IndexPath} (apart : indexPath ≠ other) :
    indexPath.item ≠ other.item := by
  intro same
  exact apart (congrArg IndexPath.mk same)

end IndexPath

structure CGSize where
  width : Rat
  height : Rat
  deriving DecidableEq, Repr

def CGSize.zero : CGSize := ⟨0, 0⟩

structure CGPoint where
  x : Rat
  y : Rat
  deriving DecidableEq, Repr

def CGPoint.zero : CGPoint := ⟨0, 0⟩

structure CGRect where
  origin : CGPoint
  size : CGSize
  deriving DecidableEq, Repr

structure Date where
  timeIntervalSinceReferenceDate : Rat
  deriving DecidableEq, Repr

/-- The device's `DateFormatter`: the text of a date in a format. It depends on
the locale and time zone of the device, so every result holds for any. -/
class DateFormatter where
  string : (dateFormat : String) → Date → String

/-- A formatter for concrete runs: the text of a date is the format. -/
@[reducible] def DateFormatter.plain : DateFormatter := ⟨fun dateFormat _ => dateFormat⟩

namespace Date

variable [DateFormatter]

def generalDateFormatter (self : Date) (format : String) : String :=
  DateFormatter.string format self

def dateFormatterOfMonthDayYear (self : Date) : String :=
  self.generalDateFormatter "MMMM d, yyyy"

end Date

/-- A photo of the library. -/
structure PHAsset where
  localIdentifier : String
  creationDate : Option Date
  deriving DecidableEq, Repr

inductive PHImageContentMode where
  | aspectFit
  | aspectFill
  deriving DecidableEq, Repr

inductive UIImage where
  | requested (asset : PHAsset) (targetSize : CGSize) (contentMode : PHImageContentMode)
  | catalog (name : String)
  deriving DecidableEq, Repr

namespace UIImage

/-- The image sets of `Assets.xcassets`. -/
def assetCatalog : List String :=
  ["BlurryImage1", "BlurryImage2", "BlurryImage3", "BlurryImage4", "BlurryImage5",
    "BlurryImageLarge", "composeIcon", "Logo", "PhoNotes"]

/-- `UIImage(named:)` is `nil` for a name the catalog does not have. -/
def named (name : String) : Option UIImage :=
  if name ∈ assetCatalog then some (.catalog name) else none

/-- The image shows this asset, at whatever size. -/
def Depicts (image : UIImage) (asset : PHAsset) : Prop :=
  ∃ targetSize contentMode, image = .requested asset targetSize contentMode

theorem depicts_requested (asset : PHAsset) (targetSize : CGSize)
    (contentMode : PHImageContentMode) :
    (UIImage.requested asset targetSize contentMode).Depicts asset := ⟨_, _, rfl⟩

end UIImage

/-- What an image request hands its result handler: an image of the asset, or
`nil`. A thumbnail request that has not called its handler by the time it
returns also counts as `nil`: the caller has then already gone on without it. -/
inductive ImageReply where
  | delivered
  | nil
  deriving DecidableEq, Repr

/-- `PHCachingImageManager.requestImage`, with the answer it gets. -/
def requestImage (asset : PHAsset) (targetSize : CGSize) (contentMode : PHImageContentMode) :
    ImageReply → Option UIImage
  | .delivered => some (.requested asset targetSize contentMode)
  | .nil => none

@[simp] theorem requestImage_delivered (asset : PHAsset) (targetSize : CGSize)
    (contentMode : PHImageContentMode) :
    requestImage asset targetSize contentMode .delivered =
      some (.requested asset targetSize contentMode) := rfl

@[simp] theorem requestImage_nil (asset : PHAsset) (targetSize : CGSize)
    (contentMode : PHImageContentMode) :
    requestImage asset targetSize contentMode .nil = none := rfl

/-- `Constants.swift` -/
def Constants.defaultNoteDetail : String := "Type in some notes here…"

end Phonotes
