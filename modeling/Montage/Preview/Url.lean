import Montage.Catalog.Sanitize
import Montage.Preview.Steps
import Montage.Settings

/-!
# Delivery URLs

The URL of a resource on the preview service names the service, the cloud, the kind of media, the
steps that are applied, and the resource.

## Main definitions

* `Montage.UrlBase`: the service and the cloud.
* `UrlBase.plain`, `UrlBase.build`, `UrlBase.chain`: the URLs without steps, with the steps of one
  edit, and with those of several.
-/

namespace Montage

/-- The service and the cloud. -/
structure UrlBase where
  service : String
  cloud : String
  deriving DecidableEq, Inhabited

namespace UrlBase

/-- The service and the cloud that the settings name. Slashes at the end of the service do not
count. -/
def of (s : Settings) : UrlBase :=
  let service := ((s.preview.get? "delivery_base").getD (.string "")).text
  ⟨String.ofList ((service.toList.reverse.dropWhile (· = '/')).reverse),
    ((s.preview.get? "cloud_name").getD (.string "")).text⟩

/-- Where the resources of one kind are. -/
def root (b : UrlBase) (r : Resource) : String :=
  b.service ++ "/" ++ b.cloud ++ "/" ++ r.name ++ "/upload"

/-- The URL of a resource as it is. -/
def plain (b : UrlBase) (publicId : Value) (r : Resource) : Except Failure String := do
  let id ← (checkPublicId publicId).mapError .edit
  return b.root r ++ "/" ++ id

/-- The URL of a resource after steps, if there are any. -/
def withPath (b : UrlBase) (publicId : Value) (path : String) (r : Resource) :
    Except Failure String := do
  let id ← (checkPublicId publicId).mapError .edit
  if path = "" then return b.root r ++ "/" ++ id
  else return b.root r ++ "/" ++ path ++ "/" ++ id

/-- The URL of a resource after one edit. -/
def build (b : UrlBase) (publicId : Value) (d : Descriptor) (r : Option Resource) :
    Except Failure String := do
  let _ ← (checkPublicId publicId).mapError Failure.edit
  b.withPath publicId (← d.path.mapError .fault) (r.getD d.resource)

/-- The URL of a resource after several edits. -/
def chain (b : UrlBase) (publicId : Value) (ds : List Descriptor) (r : Resource) :
    Except Failure String := do
  let _ ← (checkPublicId publicId).mapError Failure.edit
  let paths ← (ds.mapM Descriptor.path).mapError Failure.fault
  b.withPath publicId ("/".intercalate (paths.filter (· ≠ ""))) r

end UrlBase

end Montage
