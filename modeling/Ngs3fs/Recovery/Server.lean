import Ngs3fs.Lib.Program
import Ngs3fs.Lib.Retry
import Ngs3fs.Persist.Writer

/-!
# The S3 service, for one key

The service is not part of the repository. It is modelled from its documented behaviour:
conditional `PutObject` and `CompleteMultipartUpload` (a stale `If-Match` is answered with 412, one
on a missing object with 404), multipart uploads that are gone once they are completed, and
`HeadObject`. The identifiers it hands out are a parameter. Each write has a serial number, so that
an object is told from one that replaces it even if their ETags are equal; `found` records what the
commits of this client have replaced. Other clients write and delete the key between any two
attempts. -/

namespace Ngs3fs.Recovery
open Persist Retry

structure Object where
  serial : Nat
  etag : Text
  versionId : Text
  writeId : Text
  size : Nat
  mtime : Int
  deriving DecidableEq

structure Part where
  number : Nat
  size : Nat
  etag : Text
  deriving DecidableEq

structure Upload where
  id : Text
  writeId : Text
  parts : Nat → Option Part

structure Server where
  object : Option Object
  uploads : List Upload
  serial : Nat
  found : List (Option Object)

/-- The identifiers it hands out, and whether the answer to a commit has `Last-Modified`. -/
structure Service where
  etag : Nat → Text
  versionId : Nat → Text
  mtime : Nat → Int
  uploadId : Nat → Text
  partEtag : Nat → Text
  lastModified : Bool
  uploadId_ne_nil : ∀ n, uploadId n ≠ []
  partEtag_ne_nil : ∀ n, partEtag n ≠ []

def kMaximumMultipartParts : Nat := 10000

inductive Precondition where
  | unconditional
  | ifMatch (etag : Text)
  | ifNoneMatch
  deriving DecidableEq

def Precondition.refusal (object : Option Object) : Precondition → Option Nat
  | .unconditional => none
  | .ifMatch etag =>
    match object with
    | none => some 404
    | some object => if object.etag = etag then none else some 412
  | .ifNoneMatch => if object.isSome then some 412 else none

def Precondition.permits (condition : Precondition) (object : Option Object) : Bool :=
  (condition.refusal object).isNone

variable (service : Service)

def Server.stamp (server : Server) (writeId : Text) (size : Nat) : Object where
  serial := server.serial
  etag := service.etag server.serial
  versionId := service.versionId server.serial
  writeId := writeId
  size := size
  mtime := service.mtime server.serial

def Server.install (server : Server) (object : Object) : Server :=
  { server with
    object := some object
    serial := server.serial + 1
    found := server.object :: server.found }

def putObject (writeId : Text) (size : Nat) (condition : Precondition) (server : Server) :
    Except Nat Object × Server :=
  match condition.refusal server.object with
  | some status => (.error status, server)
  | none =>
    let object := server.stamp service writeId size
    (.ok object, server.install object)

/-- `HeadObject`. -/
def headObject (server : Server) : Except Nat Object × Server :=
  (match server.object with
    | none => .error 404
    | some object => .ok object, server)

/-- `CreateMultipartUpload`. -/
def createMultipart (writeId : Text) (server : Server) : Except Nat Text × Server :=
  let id := service.uploadId server.serial
  (.ok id, { server with
      uploads := ⟨id, writeId, fun _ => none⟩ :: server.uploads
      serial := server.serial + 1 })

def Server.upload? (server : Server) (id : Text) : Option Upload :=
  server.uploads.find? fun upload => upload.id = id

/-- `UploadPart`. -/
def uploadPart (id : Text) (number size : Nat) (server : Server) : Except Nat Text × Server :=
  match server.upload? id with
  | none => (.error 404, server)
  | some upload =>
    if number = 0 ∨ kMaximumMultipartParts < number then (.error 400, server)
    else
      let etag := service.partEtag server.serial
      let upload :=
        { upload with parts := Function.update upload.parts number (some ⟨number, size, etag⟩) }
      (.ok etag, { server with uploads := upload :: server.uploads, serial := server.serial + 1 })

/-- At most a thousand parts a page, with the marker of the next page. -/
def listParts (id : Text) (marker : Nat) (server : Server) :
    Except Nat (List Part × Option Nat) × Server :=
  (match server.upload? id with
    | none => .error 404
    | some upload =>
      let rest :=
        (List.range' (marker + 1) (kMaximumMultipartParts - marker)).filterMap upload.parts
      let page := rest.take 1000
      .ok (page, if rest.length ≤ 1000 then none else page.getLast?.map Part.number), server)

/-- From a number on; none if a part is not the one uploaded. -/
def Upload.assemble (upload : Upload) : Nat → List Text → Option Nat
  | _, [] => some 0
  | number, etag :: etags =>
    match upload.parts number with
    | none => none
    | some part =>
      if part.etag = etag then (part.size + ·) <$> upload.assemble (number + 1) etags else none

/-- The upload is gone afterwards. -/
def completeMultipartUpload (id : Text) (etags : List Text) (condition : Precondition)
    (server : Server) : Except Nat Object × Server :=
  match server.upload? id with
  | none => (.error 404, server)
  | some upload =>
    match upload.assemble 1 etags with
    | none => (.error 400, server)
    | some size =>
      match condition.refusal server.object with
      | some status => (.error status, server)
      | none =>
        let object := server.stamp service upload.writeId size
        (.ok object, { server.install object with
            uploads := server.uploads.filter fun upload => upload.id ≠ id })

inductive Foreign where
  | put (writeId : Text) (size : Nat)
  | delete
  deriving DecidableEq

def Foreign.act (server : Server) : Foreign → Server
  | .put writeId size =>
    { server with
      object := some (server.stamp service writeId size)
      serial := server.serial + 1 }
  | .delete => { server with object := none }

/-- Each place is passed at most once. -/
inductive Call where
  | put
  | complete
  | identify
  | identifyAgain
  | written
  | head
  | list (marker : Nat)
  | create
  | part (number : Nat)
  deriving DecidableEq

structure Network where
  fate : Call → Nat → Fate
  others : Call → Nat → List Foreign

def Network.before (network : Network) (call : Call) (i : Nat) (server : Server) : Server :=
  (network.others call i).foldl (Foreign.act service) server

end Ngs3fs.Recovery
