import Fabushi.Kernel.Sandbox
import Fabushi.Library.Bytes
import Fabushi.Library.Result
import Fabushi.Library.Runs
import Fabushi.Library.Sha256

/-!
# The blob store

`blob_store.rs`: an upload lives in a partial file beside its metadata until both
are renamed to the finished blob. All names are an identifier with a suffix. The
first half follows the files of one identifier through any calls, the second one
asks which identifiers share a file or leave the directory of the store.
-/

namespace Fabushi.Messaging.Blobs

open Result

structure BlobId where
  value : String
  deriving DecidableEq, Repr

structure BlobMetadata where
  id : BlobId
  fileName : String
  mimeType : String
  sizeBytes : UInt64
  contentHash : Option String := none
  createdAtMs : Int64
  deriving DecidableEq

structure BlobUploadStatus where
  id : BlobId
  sizeBytes : UInt64
  uploadedBytes : ℕ
  complete : Bool
  deriving DecidableEq

/-- `io` is the failure to find a file that is read without its metadata. -/
inductive BlobStoreError where
  | invalidBlobId (value : String)
  | invalidFileName
  | invalidMimeType
  | alreadyExists (id : BlobId)
  | notFound (id : BlobId)
  | missingMetadata (name : String)
  | emptyChunk
  | sizeOverflow
  | unexpectedOffset (id : BlobId) (expected : ℕ) (actual : UInt64)
  | uploadTooLarge (id : BlobId) (expected : UInt64) (actual : ℕ)
  | incompleteUpload (id : BlobId) (expected : UInt64) (actual : ℕ)
  | invalidContentHash (value : String)
  | integrityMismatch (expected actual : String)
  | invalidRangeLength (length : UInt64)
  | rangeOutOfBounds (id : BlobId) (offset : UInt64) (size : ℕ)
  | io
  deriving DecidableEq

def BlobId.new (value : String) : Except BlobStoreError BlobId := do
  ensure (¬ (value.isEmpty ∨ 128 < Text.len value ∨
    ¬ value.toList.all (fun c ↦ Text.isAsciiAlphanumeric c || c = '-' || c = '_' || c = '.') ∨
    value = "." ∨ value = "..")) (.invalidBlobId value)
  return ⟨value⟩

def validateMetadata (metadata : BlobMetadata) : Except BlobStoreError Unit := do
  let _ ← BlobId.new metadata.id.value
  ensure (¬ Text.isBlank metadata.fileName) .invalidFileName
  ensure (¬ Text.isBlank metadata.mimeType) .invalidMimeType

def normalizeSha256 (value : String) : Except BlobStoreError String := do
  let trimmed := Text.trim value
  let raw := (Text.stripPrefix "sha256:" trimmed).getD trimmed
  let normalized := String.ofList (raw.toList.map Char.toLower)
  ensure (¬ (Text.len normalized ≠ 64 ∨
    ¬ normalized.toList.all fun c ↦ Text.isAsciiDigit c || ('a' ≤ c ∧ c ≤ 'f')))
    (.invalidContentHash value)
  return normalized

def sha256File (bytes : List UInt8) : String :=
  Bytes.encodeHex (Sha256.digest bytes)

def maxBlobRangeBytes : UInt64 := 8 * 1024 * 1024

/-- The files of one identifier. A metadata file holds the metadata it was
written from, which is what reading it back yields. -/
structure BlobFiles where
  blob : Option (List UInt8) := none
  json : Option BlobMetadata := none
  part : Option (List UInt8) := none
  partJson : Option BlobMetadata := none
  deriving DecidableEq

namespace BlobFiles

def metadata (files : BlobFiles) (id : BlobId) : Except BlobStoreError BlobMetadata :=
  okOr files.json (.missingMetadata (id.value ++ ".json"))

def partMetadata (files : BlobFiles) (id : BlobId) : Except BlobStoreError BlobMetadata :=
  okOr files.partJson (.missingMetadata (id.value ++ ".part.json"))

/-- The new metadata is written before its size is held against the bytes that
are there already. -/
def beginUpload (files : BlobFiles) (metadata : BlobMetadata) :
    BlobFiles × Except BlobStoreError BlobUploadStatus :=
  match validateMetadata metadata with
  | .error error => (files, .error error)
  | .ok () =>
      if files.blob.isSome then
        match files.metadata metadata.id with
        | .error error => (files, .error error)
        | .ok existing =>
            if existing = metadata then
              (files, .ok ⟨metadata.id, metadata.sizeBytes, metadata.sizeBytes.toNat, true⟩)
            else (files, .error (.alreadyExists metadata.id))
      else
        let part := files.part.getD []
        let files := { files with part := some part, partJson := some metadata }
        if metadata.sizeBytes.toNat < part.length then
          (files, .error (.uploadTooLarge metadata.id metadata.sizeBytes part.length))
        else (files, .ok ⟨metadata.id, metadata.sizeBytes, part.length, false⟩)

def checkAppend (files : BlobFiles) (id : BlobId) (offset : UInt64) (bytes : List UInt8) :
    Except BlobStoreError (BlobMetadata × List UInt8) := do
  ensure (bytes ≠ []) .emptyChunk
  let metadata ← files.partMetadata id
  let part ← okOr files.part .io
  ensure (part.length = offset.toNat) (.unexpectedOffset id part.length offset)
  ensure (part.length + bytes.length < 2 ^ 64) .sizeOverflow
  ensure (part.length + bytes.length ≤ metadata.sizeBytes.toNat)
    (.uploadTooLarge id metadata.sizeBytes (part.length + bytes.length))
  return (metadata, part)

def appendChunk (files : BlobFiles) (id : BlobId) (offset : UInt64) (bytes : List UInt8) :
    BlobFiles × Except BlobStoreError BlobUploadStatus :=
  match files.checkAppend id offset bytes with
  | .error error => (files, .error error)
  | .ok (metadata, part) =>
      ({ files with part := some (part ++ bytes) },
        .ok ⟨id, metadata.sizeBytes, part.length + bytes.length, false⟩)

def checkFinish (files : BlobFiles) (id : BlobId) :
    Except BlobStoreError (BlobMetadata × List UInt8) := do
  let metadata ← files.partMetadata id
  let part ← okOr files.part .io
  ensure (part.length = metadata.sizeBytes.toNat)
    (.incompleteUpload id metadata.sizeBytes part.length)
  match metadata.contentHash with
  | none => return (metadata, part)
  | some expectedHash =>
      let expected ← normalizeSha256 expectedHash
      ensure (sha256File part = expected) (.integrityMismatch expected (sha256File part))
      return (metadata, part)

def finishUpload (files : BlobFiles) (id : BlobId) :
    BlobFiles × Except BlobStoreError BlobMetadata :=
  match files.checkFinish id with
  | .error error => (files, .error error)
  | .ok (metadata, part) =>
      ({ blob := some part, json := some metadata, part := none, partJson := none },
        .ok metadata)

def readRange (files : BlobFiles) (id : BlobId) (offset length : UInt64) :
    Except BlobStoreError (List UInt8) := do
  ensure (¬ (length = 0 ∨ maxBlobRangeBytes < length)) (.invalidRangeLength length)
  let blob ← okOr files.blob .io
  ensure (offset.toNat < blob.length) (.rangeOutOfBounds id offset blob.length)
  let readable := min length.toNat (blob.length - offset.toNat)
  return (blob.drop offset.toNat).take readable

def delete (files : BlobFiles) (id : BlobId) : BlobFiles × Except BlobStoreError Unit :=
  if files = {} then (files, .error (.notFound id)) else ({}, .ok ())

end BlobFiles

/-! ## The calls for one identifier -/

inductive BlobCall where
  | beginUpload (metadata : BlobMetadata)
  | appendChunk (offset : UInt64) (bytes : List UInt8)
  | finishUpload
  | readRange (offset length : UInt64)
  | delete

inductive BlobReply where
  | status (status : BlobUploadStatus)
  | metadata (metadata : BlobMetadata)
  | bytes (bytes : List UInt8)
  | done
  deriving DecidableEq

namespace BlobFiles

def call (files : BlobFiles) (id : BlobId) : BlobCall → BlobFiles × Except BlobStoreError BlobReply
  | .beginUpload metadata =>
      let (files, result) := files.beginUpload metadata
      (files, result.map .status)
  | .appendChunk offset bytes =>
      let (files, result) := files.appendChunk id offset bytes
      (files, result.map .status)
  | .finishUpload =>
      let (files, result) := files.finishUpload id
      (files, result.map .metadata)
  | .readRange offset length => (files, (files.readRange id offset length).map .bytes)
  | .delete =>
      let (files, result) := files.delete id
      (files, result.map fun _ ↦ .done)

end BlobFiles

/-- The files beside what the callers know: the metadata of the last upload that
was begun, and the chunks accepted since an upload was begun from nothing. -/
structure BlobUpload where
  files : BlobFiles := {}
  declared : Option BlobMetadata := none
  chunks : List (List UInt8) := []

namespace BlobUpload

variable (id : BlobId)

def step (upload : BlobUpload) (c : BlobCall) : BlobUpload :=
  let (files, result) := upload.files.call id c
  match c, result with
  | .beginUpload metadata, .ok _ =>
      if upload.files.blob = none ∧ upload.files.part = none then ⟨files, some metadata, []⟩
      else ⟨files, some metadata, upload.chunks⟩
  | .appendChunk _ bytes, .ok _ => ⟨files, upload.declared, upload.chunks ++ [bytes]⟩
  | _, _ => ⟨files, upload.declared, upload.chunks⟩

structure Finished (upload : BlobUpload) (blob : List UInt8) : Prop where
  bytes : blob = upload.chunks.flatten
  declared : ∃ metadata, upload.declared = some metadata ∧
    blob.length = metadata.sizeBytes.toNat ∧
    ∀ hash, metadata.contentHash = some hash → normalizeSha256 hash = .ok (sha256File blob)

structure CallMeets (upload : BlobUpload) (c : BlobCall) : Prop where
  finished : ∀ blob, (step id upload c).files.blob = some blob →
    Finished (step id upload c) blob
  read : ∀ offset length bytes, c = .readRange offset length →
    upload.files.readRange id offset length = .ok bytes →
    ∃ blob, upload.files.blob = some blob ∧ bytes = (blob.drop offset.toNat).take length.toNat
  failed : ∀ error, (upload.files.call id c).2 = .error error →
    (upload.files.call id c).1 = upload.files

def CallFits (upload : BlobUpload) : BlobCall → Prop
  | .beginUpload metadata => validateMetadata metadata = .ok () → upload.files.blob = none →
      ∀ part, upload.files.part = some part → part.length ≤ metadata.sizeBytes.toNat
  | _ => True

structure Good (upload : BlobUpload) : Prop where
  finished : ∀ blob, upload.files.blob = some blob → Finished upload blob
  json : ∀ blob, upload.files.blob = some blob → upload.files.json = upload.declared
  alone : ∀ blob, upload.files.blob = some blob → upload.files.part = none
  part : ∀ part, upload.files.part = some part → part = upload.chunks.flatten ∧
    upload.files.partJson = upload.declared ∧
    ∃ metadata, upload.declared = some metadata ∧ part.length ≤ metadata.sizeBytes.toNat

variable {id} {upload : BlobUpload} {c : BlobCall}

/-! ## One call -/

theorem Good.meets_of_same (h : Good upload) (hstep : step id upload c = upload)
    (hfiles : (upload.files.call id c).1 = upload.files)
    (hread : ∀ offset length, c ≠ .readRange offset length) : CallMeets id upload c where
  finished := by
    rw [hstep]
    exact h.finished
  read := fun offset length _ hc ↦ absurd hc (hread offset length)
  failed := fun _ _ ↦ hfiles

theorem step_of_error {error : BlobStoreError}
    (h : upload.files.call id c = (upload.files, .error error)) : step id upload c = upload := by
  rw [step, h]
  cases c <;> rfl

theorem Good.meets_of_error (h : Good upload) {error : BlobStoreError}
    (hcall : upload.files.call id c = (upload.files, .error error))
    (hread : ∀ offset length, c ≠ .readRange offset length) :
    CallMeets id upload c ∧ Good (step id upload c) := by
  rw [step_of_error hcall]
  exact ⟨h.meets_of_same (step_of_error hcall) (by rw [hcall]) hread, h⟩

theorem Good.begin_cases (h : Good upload) (metadata : BlobMetadata) :
    (step id upload (.beginUpload metadata) = upload ∧
      (upload.files.call id (.beginUpload metadata)).1 = upload.files ∧
      CallFits upload (.beginUpload metadata)) ∨
    (upload.files.blob = none ∧ ∃ status,
      (upload.files.part.getD []).length ≤ metadata.sizeBytes.toNat ∧
      upload.files.call id (.beginUpload metadata) =
        ({ upload.files with part := some (upload.files.part.getD []), partJson := metadata },
          .ok (.status status))) ∨
    (∃ part error, upload.files.part = some part ∧ metadata.sizeBytes.toNat < part.length ∧
      ¬ CallFits upload (.beginUpload metadata) ∧
      upload.files.call id (.beginUpload metadata) =
        ({ upload.files with part := some part, partJson := metadata }, .error error)) := by
  cases hvalid : validateMetadata metadata with
  | error error =>
    have hcall : upload.files.call id (.beginUpload metadata) = (upload.files, .error error) := by
      simp only [BlobFiles.call, BlobFiles.beginUpload, hvalid, Except.map]
    exact Or.inl ⟨step_of_error hcall, by rw [hcall], by simp [CallFits, hvalid]⟩
  | ok _ =>
    cases hblob : upload.files.blob with
    | some blob =>
      obtain ⟨declared, hdeclared, -⟩ := (h.finished blob hblob).declared
      have hjson := (h.json blob hblob).trans hdeclared
      refine Or.inl ?_
      by_cases hsame : declared = metadata
      · subst hsame
        have hcall : upload.files.call id (.beginUpload declared) = (upload.files,
            .ok (.status ⟨declared.id, declared.sizeBytes, declared.sizeBytes.toNat, true⟩)) := by
          simp [BlobFiles.call, BlobFiles.beginUpload, hvalid, hblob, BlobFiles.metadata, hjson,
            okOr, Except.map]
        refine ⟨?_, by rw [hcall], by simp [CallFits, hblob]⟩
        rw [step, hcall]
        simp only [hblob, reduceCtorEq, false_and, if_false, ← hdeclared]
      · have hcall : upload.files.call id (.beginUpload metadata) =
            (upload.files, .error (.alreadyExists metadata.id)) := by
          simp [BlobFiles.call, BlobFiles.beginUpload, hvalid, hblob, BlobFiles.metadata, hjson,
            okOr, hsame, Except.map]
        exact ⟨step_of_error hcall, by rw [hcall], by simp [CallFits, hblob]⟩
    | none =>
      refine Or.inr ?_
      by_cases hsize : metadata.sizeBytes.toNat < (upload.files.part.getD []).length
      · cases hpart : upload.files.part with
        | none => simp [hpart] at hsize
        | some part =>
          rw [hpart, Option.getD_some] at hsize
          refine Or.inr ⟨part, .uploadTooLarge metadata.id metadata.sizeBytes part.length, rfl,
            hsize, ?_, ?_⟩
          · intro hfits
            exact absurd (hfits hvalid hblob part hpart) (Nat.not_le.mpr hsize)
          · simp [BlobFiles.call, BlobFiles.beginUpload, hvalid, hblob, hpart, hsize, Except.map]
      · refine Or.inl ⟨rfl, ⟨metadata.id, metadata.sizeBytes,
          (upload.files.part.getD []).length, false⟩, Nat.not_lt.mp hsize, ?_⟩
        simp [BlobFiles.call, BlobFiles.beginUpload, hvalid, hblob, hsize, Except.map]

theorem Good.meets_begin (h : Good upload) (metadata : BlobMetadata) :
    (CallMeets id upload (.beginUpload metadata) ↔ CallFits upload (.beginUpload metadata)) ∧
      (CallFits upload (.beginUpload metadata) → Good (step id upload (.beginUpload metadata))) := by
  rcases @Good.begin_cases id upload h metadata with ⟨hstep, hfiles, hfits⟩ |
    ⟨hblob, status, hsize, hcall⟩ | ⟨part, error, hpart, hsize, hnot, hcall⟩
  · exact ⟨iff_of_true (h.meets_of_same hstep hfiles (by simp)) hfits,
      fun _ ↦ by rwa [hstep]⟩
  · have hfits : CallFits upload (.beginUpload metadata) := by
      intro _ _ part hpart
      simpa [hpart] using hsize
    have hstep : ∃ chunks, step id upload (.beginUpload metadata) = ⟨{ upload.files with
        part := some (upload.files.part.getD []), partJson := metadata }, some metadata, chunks⟩ ∧
        upload.files.part.getD [] = chunks.flatten := by
      rw [step, hcall]
      cases hpart : upload.files.part with
      | none => exact ⟨[], by simp [hblob], rfl⟩
      | some part => exact ⟨upload.chunks, by simp, (h.part part hpart).1⟩
    obtain ⟨chunks, hstep, hchunks⟩ := hstep
    have hnone : ∀ blob, (step id upload (.beginUpload metadata)).files.blob ≠ some blob := by
      rw [hstep]
      simp [hblob]
    refine ⟨iff_of_true ⟨fun blob hb ↦ absurd hb (hnone blob), by simp, ?_⟩ hfits, fun _ ↦ ?_⟩
    · rw [hcall]
      rintro error ⟨⟩
    · refine ⟨fun blob hb ↦ absurd hb (hnone blob), fun blob hb ↦ absurd hb (hnone blob),
        fun blob hb ↦ absurd hb (hnone blob), ?_⟩
      rw [hstep]
      rintro part ⟨⟩
      exact ⟨hchunks, rfl, metadata, rfl, hsize⟩
  · refine ⟨iff_of_false (fun hmeets ↦ ?_) hnot, fun hfits ↦ absurd hfits hnot⟩
    have hkept := hmeets.failed error (by rw [hcall])
    obtain ⟨-, hjson, declared, hdeclared, hlength⟩ := h.part part hpart
    rw [hcall] at hkept
    have hsame : some metadata = upload.files.partJson := congrArg BlobFiles.partJson hkept
    rw [hjson, hdeclared] at hsame
    cases hsame
    omega

theorem Good.meets_append (h : Good upload) (offset : UInt64) (bytes : List UInt8) :
    CallMeets id upload (.appendChunk offset bytes) ∧
      Good (step id upload (.appendChunk offset bytes)) := by
  cases hcheck : upload.files.checkAppend id offset bytes with
  | error error =>
    refine @Good.meets_of_error id upload _ h error ?_ (by simp)
    simp only [BlobFiles.call, BlobFiles.appendChunk, hcheck, Except.map]
  | ok found =>
    obtain ⟨metadata, part⟩ := found
    have hstep : step id upload (.appendChunk offset bytes) =
        ⟨{ upload.files with part := some (part ++ bytes) }, upload.declared,
          upload.chunks ++ [bytes]⟩ := by
      simp only [step, BlobFiles.call, BlobFiles.appendChunk, hcheck, Except.map]
    have hok : ∀ error, (upload.files.call id (.appendChunk offset bytes)).2 ≠ .error error := by
      simp [BlobFiles.call, BlobFiles.appendChunk, hcheck, Except.map]
    simp only [BlobFiles.checkAppend, BlobFiles.partMetadata, bind_eq_ok, ensure_eq_ok,
      okOr_eq_ok] at hcheck
    obtain ⟨_, -, metadata', hjson, part', hpart, _, -, _, -, _, hsize, hfound⟩ := hcheck
    cases hfound
    obtain ⟨hbytes, hdeclared, -⟩ := h.part part hpart
    have hnone : ∀ blob, upload.files.blob ≠ some blob := by
      intro blob hblob
      rw [h.alone blob hblob] at hpart
      cases hpart
    refine ⟨⟨?_, by simp, fun error herror ↦ absurd herror (hok error)⟩, ?_⟩
    · rw [hstep]
      exact fun blob hblob ↦ absurd hblob (hnone blob)
    · rw [hstep]
      refine ⟨fun blob hblob ↦ absurd hblob (hnone blob),
        fun blob hblob ↦ absurd hblob (hnone blob), fun blob hblob ↦ absurd hblob (hnone blob), ?_⟩
      rintro part' ⟨⟩
      refine ⟨by simp [hbytes], hdeclared, metadata, hdeclared ▸ hjson, ?_⟩
      simpa using hsize

theorem checkFinish_ok {files : BlobFiles} {metadata : BlobMetadata} {part : List UInt8}
    (h : files.checkFinish id = .ok (metadata, part)) :
    files.partJson = some metadata ∧ files.part = some part ∧
      part.length = metadata.sizeBytes.toNat ∧
      ∀ hash, metadata.contentHash = some hash → normalizeSha256 hash = .ok (sha256File part) := by
  simp only [BlobFiles.checkFinish, BlobFiles.partMetadata, bind_eq_ok, ensure_eq_ok,
    okOr_eq_ok] at h
  obtain ⟨metadata', hjson, part', hpart, _, hlength, hrest⟩ := h
  cases hhash : metadata'.contentHash with
  | none =>
    rw [hhash] at hrest
    cases hrest
    exact ⟨hjson, hpart, hlength, by simp [hhash]⟩
  | some expectedHash =>
    rw [hhash] at hrest
    simp only [bind_eq_ok, ensure_eq_ok] at hrest
    obtain ⟨expected, hexpected, _, hequal, hfound⟩ := hrest
    cases hfound
    refine ⟨hjson, hpart, hlength, ?_⟩
    intro hash heq
    rw [hhash] at heq
    cases heq
    rw [hequal, hexpected]

theorem Good.meets_finish (h : Good upload) :
    CallMeets id upload .finishUpload ∧ Good (step id upload .finishUpload) := by
  cases hcheck : upload.files.checkFinish id with
  | error error =>
    refine @Good.meets_of_error id upload _ h error ?_ (by simp)
    simp only [BlobFiles.call, BlobFiles.finishUpload, hcheck, Except.map]
  | ok found =>
    obtain ⟨metadata, part⟩ := found
    have hstep : step id upload .finishUpload =
        ⟨⟨some part, some metadata, none, none⟩, upload.declared, upload.chunks⟩ := by
      simp only [step, BlobFiles.call, BlobFiles.finishUpload, hcheck, Except.map]
    have hok : ∀ error, (upload.files.call id .finishUpload).2 ≠ .error error := by
      simp [BlobFiles.call, BlobFiles.finishUpload, hcheck, Except.map]
    obtain ⟨hjson, hpart, hlength, hhash⟩ := checkFinish_ok hcheck
    obtain ⟨hbytes, hdeclared, -⟩ := h.part part hpart
    rw [hjson] at hdeclared
    have hfinished : ∀ blob, (step id upload .finishUpload).files.blob = some blob →
        Finished (step id upload .finishUpload) blob := by
      rw [hstep]
      rintro blob ⟨⟩
      exact ⟨hbytes, metadata, hdeclared.symm, hlength, hhash⟩
    refine ⟨⟨hfinished, by simp, fun error herror ↦ absurd herror (hok error)⟩,
      ⟨hfinished, ?_, ?_, ?_⟩⟩
    all_goals rw [hstep]
    · exact fun _ _ ↦ hdeclared
    · exact fun _ _ ↦ rfl
    · rintro part' ⟨⟩

theorem Good.meets_readRange (h : Good upload) (offset length : UInt64) :
    CallMeets id upload (.readRange offset length) ∧
      Good (step id upload (.readRange offset length)) := by
  have hstep : step id upload (.readRange offset length) = upload := rfl
  refine ⟨⟨?_, ?_, fun _ _ ↦ rfl⟩, hstep ▸ h⟩
  · rw [hstep]
    exact h.finished
  · rintro offset' length' bytes ⟨⟩ hread
    simp only [BlobFiles.readRange, bind_eq_ok, ensure_eq_ok, okOr_eq_ok] at hread
    obtain ⟨_, -, blob, hblob, _, -, hbytes⟩ := hread
    cases hbytes
    refine ⟨blob, hblob, ?_⟩
    rw [← List.length_drop, ← List.take_take, List.take_length]

theorem Good.meets_delete (h : Good upload) :
    CallMeets id upload .delete ∧ Good (step id upload .delete) := by
  by_cases hempty : upload.files = {}
  · refine @Good.meets_of_error id upload _ h (.notFound id) ?_ (by simp)
    simp only [BlobFiles.call, BlobFiles.delete, if_pos hempty, Except.map]
  · have hstep : step id upload .delete = ⟨{}, upload.declared, upload.chunks⟩ := by
      simp only [step, BlobFiles.call, BlobFiles.delete, if_neg hempty, Except.map]
    have hok : ∀ error, (upload.files.call id .delete).2 ≠ .error error := by
      simp [BlobFiles.call, BlobFiles.delete, if_neg hempty, Except.map]
    refine ⟨⟨?_, by simp, fun error herror ↦ absurd herror (hok error)⟩, ?_, ?_, ?_, ?_⟩
    all_goals
      rw [hstep]
      rintro _ ⟨⟩

theorem Good.meets_call (h : Good upload) (c : BlobCall) :
    (CallMeets id upload c ↔ CallFits upload c) ∧ (CallFits upload c → Good (step id upload c)) := by
  cases c with
  | beginUpload metadata => exact h.meets_begin metadata
  | appendChunk offset bytes =>
    exact ⟨iff_of_true (h.meets_append offset bytes).1 trivial,
      fun _ ↦ (h.meets_append offset bytes).2⟩
  | finishUpload => exact ⟨iff_of_true h.meets_finish.1 trivial, fun _ ↦ h.meets_finish.2⟩
  | readRange offset length =>
    exact ⟨iff_of_true (h.meets_readRange offset length).1 trivial,
      fun _ ↦ (h.meets_readRange offset length).2⟩
  | delete => exact ⟨iff_of_true h.meets_delete.1 trivial, fun _ ↦ h.meets_delete.2⟩

/-! ## Runs -/

theorem good_empty : Good {} :=
  ⟨by rintro _ ⟨⟩, by rintro _ ⟨⟩, by rintro _ ⟨⟩, by rintro _ ⟨⟩⟩

/-- All calls for an identifier keep their promises exactly when no upload that
goes on is given less room than it has taken. -/
theorem uploads_kept_iff (id : BlobId) (calls : List BlobCall) :
    Runs.Along (step id) (CallMeets id) {} calls ↔ Runs.Along (step id) CallFits {} calls := by
  refine Runs.along_iff_along (A := fun _ _ ↦ True)
    (fun upload c h _ ↦ (@Good.meets_call id upload h c).1)
    (fun upload c h _ ↦ (@Good.meets_call id upload h c).2) good_empty ?_
  exact Runs.along_of_forall_mem (step id) (fun _ _ _ ↦ trivial) {}

def sampleMetadata (sizeBytes : UInt64) : BlobMetadata :=
  { id := ⟨"a"⟩, fileName := "a.bin", mimeType := "text/plain", sizeBytes, createdAtMs := 1 }

/-- Two bytes are there when the upload is begun again for one. -/
theorem refused_begin_overwrites : ¬ ∀ (id : BlobId) (calls : List BlobCall),
    Runs.Along (step id) (CallMeets id) {} calls := by
  intro h
  obtain ⟨-, -, hmeets, -⟩ := h ⟨"a"⟩ [.beginUpload (sampleMetadata 2), .appendChunk 0 [1, 2],
    .beginUpload (sampleMetadata 1)]
  have hkept := hmeets.failed (.uploadTooLarge ⟨"a"⟩ 1 2) (by decide +kernel)
  revert hkept
  decide +kernel

end BlobUpload

/-! ## The paths of an identifier -/

def joinPath (root name : String) : String :=
  if Kernel.isAbsolute name then name
  else if root.toList = [] ∨ root.toList.getLast? = some '/' then root ++ name
  else root ++ "/" ++ name

/-- What is put behind an identifier: the four files, and the temporary file of
the metadata, which only a call that checks the identifier writes. -/
def BlobId.suffixes (id : BlobId) : List String :=
  [".blob", ".json", ".part", ".part.json"] ++
    if BlobId.new id.value = .ok id then [".part.json.tmp"] else []

/-- The files a store in `root` reads, writes or deletes for an identifier. No
operation but the beginning of an upload checks the identifier first. -/
def BlobId.paths (root : String) (id : BlobId) : List (List Kernel.Component) :=
  id.suffixes.map fun suffix ↦ Kernel.components (joinPath root (id.value ++ suffix))

structure Isolated (root : String) (a b : BlobId) : Prop where
  left_inside : ∀ path ∈ a.paths root, ∃ name,
    path = Kernel.components root ++ [.normal name]
  right_inside : ∀ path ∈ b.paths root, ∃ name,
    path = Kernel.components root ++ [.normal name]
  disjoint : ∀ path ∈ a.paths root, path ∉ b.paths root

def BlobId.directory (id : BlobId) : String :=
  String.ofList (id.value.toList.rdropWhile (· ≠ '/'))

def BlobId.base (id : BlobId) : String :=
  String.ofList (id.value.toList.rtakeWhile (· ≠ '/'))

/-- The part of the identifier in front of its last slash leads back to the root. -/
def BlobId.AtRoot (root : String) (id : BlobId) : Prop :=
  Kernel.components (joinPath root id.directory) = Kernel.components root

def Slashed (text : String) : Prop :=
  text = "" ∨ ∃ front, text = front ++ String.singleton '/'

theorem slashed_of_getLast {text : String} (h : text.toList = [] ∨ text.toList.getLast? = some '/') :
    Slashed text := by
  rcases h with h | h
  · exact Or.inl (String.toList_inj.mp h)
  · obtain ⟨front, hfront⟩ := List.getLast?_eq_some_iff.mp h
    refine Or.inr ⟨String.ofList front, String.toList_inj.mp ?_⟩
    rw [hfront, String.toList_append, String.toList_ofList, String.toList_singleton]

theorem Slashed.append {text : String} (h : Slashed text) (front : String) (hfront : Slashed front) :
    Slashed (front ++ text) := by
  rcases h with rfl | ⟨rest, rfl⟩
  · rwa [String.append_empty]
  · exact Or.inr ⟨front ++ rest, by rw [String.append_assoc]⟩

theorem Slashed.isAbsolute_append {directory name : String} (h : Slashed directory)
    (hname : '/' ∉ name.toList) :
    Kernel.isAbsolute (directory ++ name) = Kernel.isAbsolute directory := by
  rw [Kernel.isAbsolute, Kernel.isAbsolute, String.toList_append]
  rcases h with rfl | ⟨front, rfl⟩
  · cases hlist : name.toList with
    | nil => rfl
    | cons c cs =>
      have hc : c ≠ '/' := by
        rintro rfl
        exact hname (hlist ▸ List.mem_cons_self)
      simpa using hc
  · rw [String.toList_append, String.toList_singleton, List.append_assoc]
    cases front.toList <;> simp

theorem components_eq_append {longer shorter : String} {init extra extra' : List (List Char)}
    {tail : List Kernel.Component} (hinit : init ≠ [])
    (hlonger : Joined.pieces '/' longer = init ++ extra)
    (hshorter : Joined.pieces '/' shorter = init ++ extra')
    (habsolute : Kernel.isAbsolute longer = Kernel.isAbsolute shorter)
    (htail : extra.filterMap Kernel.componentOf = extra'.filterMap Kernel.componentOf ++ tail) :
    Kernel.components longer = Kernel.components shorter ++ tail := by
  have hall : ∀ parts, (parts ++ extra).filterMap Kernel.componentOf =
      (parts ++ extra').filterMap Kernel.componentOf ++ tail := by
    intro parts
    rw [List.filterMap_append, List.filterMap_append, htail, List.append_assoc]
  rw [Kernel.components, Kernel.components, habsolute, hlonger, hshorter]
  obtain ⟨first, rest, rfl⟩ := List.exists_cons_of_ne_nil hinit
  split_ifs
  · exact congrArg (Kernel.Component.rootDir :: ·) (hall (first :: rest))
  · by_cases hdot : first = ['.']
    · subst hdot
      exact congrArg (Kernel.Component.curDir :: ·) (hall rest)
    · dsimp only [List.cons_append]
      split
      · simp_all
      · split
        · simp_all
        · exact hall (first :: rest)

theorem pieces_slash (path : String) :
    Joined.pieces '/' (path ++ "/") = Joined.pieces '/' path ++ [[]] := by
  have hjoin := @Joined.pieces_join '/' path ""
  rwa [String.append_empty] at hjoin

theorem components_append {directory name : String} (h : Slashed directory)
    (hname : Kernel.PlainPart name) :
    Kernel.components (directory ++ name) = Kernel.components directory ++ [.normal name] := by
  have hone := Kernel.componentOf_plain hname
  have hpieces : Joined.pieces '/' name = [name.toList] :=
    List.splitOn_eq_singleton hname.notMem
  have hnil : Kernel.componentOf [] = none := rfl
  have habsolute := h.isAbsolute_append hname.notMem
  rcases h with rfl | ⟨front, rfl⟩
  · have hempty : Joined.pieces '/' "" = [[]] := rfl
    have hrelative : Kernel.isAbsolute "" = false := rfl
    have hdot := hname.ne_dot
    rw [Kernel.components, Kernel.components, habsolute, String.empty_append, hpieces, hempty,
      hrelative]
    simp only [Bool.false_eq_true, if_false]
    split
    · simp_all
    · simp [hone, hnil]
  · have hlonger := @Joined.pieces_join '/' front name
    rw [hpieces] at hlonger
    exact components_eq_append (List.splitOnP_ne_nil _ _) hlonger (pieces_slash front) habsolute
      (by simp [hone, hnil])

theorem joinPath_append (root : String) {directory name : String} (h : Slashed directory)
    (hname : '/' ∉ name.toList) :
    joinPath root (directory ++ name) = joinPath root directory ++ name := by
  simp only [joinPath, h.isAbsolute_append hname]
  split_ifs <;> simp only [String.append_assoc]

theorem slashed_joinPath (root : String) {directory : String} (h : Slashed directory) :
    Slashed (joinPath root directory) := by
  rw [joinPath]
  split_ifs with habsolute hroot
  · exact h
  · exact h.append root (slashed_of_getLast hroot)
  · exact h.append (root ++ "/") (Or.inr ⟨root, rfl⟩)

namespace BlobId

variable {id a b : BlobId}

theorem directory_append_base (id : BlobId) : id.directory ++ id.base = id.value := by
  apply String.toList_inj.mp
  rw [directory, base, String.toList_append, String.toList_ofList, String.toList_ofList,
    List.rdropWhile_append_rtakeWhile]

theorem slash_notMem_base (id : BlobId) : '/' ∉ id.base.toList := by
  rw [base, String.toList_ofList]
  intro hmem
  simpa using List.mem_rtakeWhile_imp hmem

theorem slashed_directory (id : BlobId) : Slashed id.directory := by
  apply slashed_of_getLast
  rw [directory, String.toList_ofList]
  by_cases hnil : id.value.toList.rdropWhile (· ≠ '/') = []
  · exact Or.inl hnil
  · have hlast := List.rdropWhile_last_not _ _ hnil
    rw [List.getLast?_eq_some_getLast hnil]
    exact Or.inr (congrArg some (by simpa using hlast))

theorem suffixes_subset {suffix : String} (h : suffix ∈ id.suffixes) :
    suffix ∈ [".blob", ".json", ".part", ".part.json", ".part.json.tmp"] := by
  revert h
  unfold suffixes
  split
  · simp
  · simp only [List.append_nil, List.mem_cons, List.not_mem_nil, or_false]
    tauto

theorem suffix_plain {suffix : String} (h : suffix ∈ id.suffixes) :
    Kernel.PlainPart (id.base ++ suffix) := by
  have hall : ∀ suffix ∈ [".blob", ".json", ".part", ".part.json", ".part.json.tmp"],
      '/' ∉ suffix.toList ∧ 2 < suffix.toList.length := by decide
  have hsuffix := hall suffix (suffixes_subset h)
  have hlength : 2 < (id.base ++ suffix).toList.length := by
    rw [String.toList_append, List.length_append]
    omega
  refine ⟨?_, ?_, ?_, ?_⟩
  · exact fun h ↦ by simp [h] at hlength
  · exact fun h ↦ by simp [h] at hlength
  · exact fun h ↦ by simp [h] at hlength
  · rw [String.toList_append, List.mem_append]
    exact not_or.mpr ⟨id.slash_notMem_base, hsuffix.1⟩

theorem paths_eq (root : String) (id : BlobId) :
    id.paths root = id.suffixes.map fun suffix ↦
      Kernel.components (joinPath root id.directory) ++ [.normal (id.base ++ suffix)] := by
  refine List.map_congr_left fun suffix hsuffix ↦ ?_
  have hplain := suffix_plain hsuffix
  rw [← id.directory_append_base, String.append_assoc,
    joinPath_append root id.slashed_directory hplain.notMem,
    components_append (slashed_joinPath root id.slashed_directory) hplain]

/-- Two identifiers with a suffix each have one name only if they are the same,
or one of them is the other one with the suffix of the partial file. -/
theorem suffix_cases {x y s t : String}
    (hs : s ∈ [".blob", ".json", ".part", ".part.json", ".part.json.tmp"])
    (ht : t ∈ [".blob", ".json", ".part", ".part.json", ".part.json.tmp"])
    (h : x ++ s = y ++ t) : x = y ∨ x = y ++ ".part" ∨ y = x ++ ".part" := by
  have hlast : s.toList.getLast? = t.toList.getLast? := by
    have hne : ∀ s ∈ [".blob", ".json", ".part", ".part.json", ".part.json.tmp"],
        s.toList ≠ [] := by decide
    have hlist := congrArg (fun text : String ↦ text.toList.getLast?) h
    simp only [String.toList_append] at hlist
    rwa [List.getLast?_append_of_ne_nil _ (hne s hs),
      List.getLast?_append_of_ne_nil _ (hne t ht)] at hlist
  have hjson : ".part.json" = ".part" ++ ".json" := by decide
  by_cases hst : s = t
  · subst hst
    exact Or.inl ((String.append_left_inj _).mp h)
  · simp only [List.mem_cons, List.not_mem_nil, or_false] at hs ht
    rcases hs with rfl | rfl | rfl | rfl | rfl <;> rcases ht with rfl | rfl | rfl | rfl | rfl <;>
      first
      | exact absurd rfl hst
      | exact absurd hlast (by decide)
      | skip
    · rw [hjson, ← String.append_assoc] at h
      exact Or.inr (Or.inl ((String.append_left_inj _).mp h))
    · rw [hjson, ← String.append_assoc] at h
      exact Or.inr (Or.inr ((String.append_left_inj _).mp h).symm)

theorem inside_iff (root : String) (id : BlobId) :
    (∀ path ∈ id.paths root, ∃ name, path = Kernel.components root ++ [.normal name]) ↔
      id.AtRoot root := by
  rw [paths_eq, AtRoot]
  constructor
  · intro h
    obtain ⟨name, hname⟩ := h _ (List.mem_map_of_mem (show ".blob" ∈ id.suffixes by simp [suffixes]))
    exact (List.append_inj' hname rfl).1
  · intro h path hpath
    obtain ⟨suffix, -, rfl⟩ := List.mem_map.mp hpath
    exact ⟨_, by rw [h]⟩

/-- Two identifiers are isolated exactly when what is in front of their last
slashes leads back to the root, and the names behind are neither the same nor
one of them the other followed by `.part`. -/
theorem isolated_iff (root : String) (a b : BlobId) :
    Isolated root a b ↔ (a.AtRoot root ∧ b.AtRoot root) ∧
      a.base ≠ b.base ∧ a.base ≠ b.base ++ ".part" ∧ b.base ≠ a.base ++ ".part" := by
  have hmem : ∀ (id : BlobId) (suffix : String),
      suffix ∈ [".blob", ".json", ".part", ".part.json"] → suffix ∈ id.suffixes :=
    fun id suffix h ↦ List.mem_append_left _ h
  have hjson : ".part.json" = ".part" ++ ".json" := by decide
  constructor
  · rintro ⟨hleft, hright, hdisjoint⟩
    have ha := (inside_iff root a).mp hleft
    have hb := (inside_iff root b).mp hright
    have hname : ∀ s ∈ [".blob", ".json", ".part", ".part.json"],
        ∀ t ∈ [".blob", ".json", ".part", ".part.json"], a.base ++ s ≠ b.base ++ t := by
      intro s hs t ht heq
      refine hdisjoint (Kernel.components root ++ [.normal (a.base ++ s)]) ?_ ?_
      · rw [paths_eq, ha]
        exact List.mem_map_of_mem (hmem a s hs)
      · rw [paths_eq, hb, heq]
        exact List.mem_map_of_mem (hmem b t ht)
    refine ⟨⟨ha, hb⟩, ?_, ?_, ?_⟩
    · exact fun h ↦ hname ".blob" (by simp) ".blob" (by simp) (by rw [h])
    · exact fun h ↦ hname ".json" (by simp) ".part.json" (by simp)
        (by rw [h, hjson, String.append_assoc])
    · exact fun h ↦ hname ".part.json" (by simp) ".json" (by simp)
        (by rw [h, hjson, String.append_assoc])
  · rintro ⟨⟨ha, hb⟩, hne, hleft, hright⟩
    refine ⟨(inside_iff root a).mpr ha, (inside_iff root b).mpr hb, fun path hpath hpath' ↦ ?_⟩
    rw [paths_eq, ha] at hpath
    rw [paths_eq, hb] at hpath'
    obtain ⟨s, hs, rfl⟩ := List.mem_map.mp hpath
    obtain ⟨t, ht, heq⟩ := List.mem_map.mp hpath'
    have hnames : b.base ++ t = a.base ++ s := by simpa using heq
    rcases suffix_cases (suffixes_subset ht) (suffixes_subset hs) hnames with h | h | h
    · exact hne h.symm
    · exact hright h
    · exact hleft h

/-- Both identifiers are valid, and the metadata of the finished second blob is
the file for the metadata of the first upload. -/
theorem part_identifier_shares_file :
    BlobId.new "a" = .ok ⟨"a"⟩ ∧ BlobId.new "a.part" = .ok ⟨"a.part"⟩ ∧
      ¬ Isolated "/data" ⟨"a"⟩ ⟨"a.part"⟩ := by
  refine ⟨by decide +kernel, by decide +kernel, fun h ↦ ?_⟩
  exact h.disjoint (Kernel.components "/data/a.part.json") (by decide +kernel) (by decide +kernel)

end BlobId

end Fabushi.Messaging.Blobs
