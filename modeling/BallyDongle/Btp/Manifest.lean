import BallyDongle.Btp
import BallyDongle.Lib.SizedFields
import Mathlib.Algebra.Group.Nat.Defs

/-!
# MANIFEST_DATA as the firmware sees it

`btp::ManifestReader` and `btp::ManifestWriter`, with the head they read and
write. A reader is asked for the head, then the source_info block, then the two
record runs of one payload; `rawRecords` answers with views into it. A writer is
started on a buffer and called in the order of the layout; `write` is such a
sequence of calls.
-/

namespace BallyDongle.Btp

/-- `btp::ManifestHeader`. -/
structure ManifestHeader where
  request : RequestRef
  status : UInt8
  flags : UInt8
  errorCode : UInt16
  manifestFormatVersion : UInt16
  configRevision : UInt32
  sourceUuid : Vector UInt8 16
  describedSourceId : UInt32
  describedBootId : UInt32
  sourceRole : UInt8
  sourceFlags : UInt8
  catalogIndex : UInt16
  catalogCount : UInt16
  topicCount : UInt16 := 0
  actionCount : UInt16 := 0
  sourceName : Bytes
  deriving DecidableEq, Repr

/-- `btp::ResultStatus::Success`. -/
def kResultSuccess : UInt8 := 0
/-- The bit of `flags` that says the content is the one the client has. -/
def kManifestNotModified : UInt8 := 0x01
/-- The bit of `source_flags` that says the source is online. -/
def kSourceOnline : UInt8 := 0x01

/-- A `btp::ByteView` into a payload. -/
structure ByteView where
  offset : Nat
  size : Nat
  deriving DecidableEq, Repr

/-- `size` octets of `data` from `offset`, as `memcpy` reads them. -/
def slice (data : Bytes) (offset size : Nat) : Bytes := (data.drop offset).take size

def ByteView.octets (view : ByteView) (data : Bytes) : Bytes := slice data view.offset view.size

structure ManifestReader where
  header : Bytes → Except MessageError ManifestHeader
  rawSourceInfo : Bytes → Except MessageError Bytes
  rawRecords : Bytes → Except MessageError (ByteView × ByteView)

structure ManifestWriter where
  State : Type
  start : (outCapacity : Nat) → State
  begin : State → ManifestHeader → Option State
  putRawSourceInfo : State → Bytes → Option State
  putRawRecords : State → (topics actions : Bytes) → Option State
  finish : State → Option Bytes

/-- The calls that write one payload; `none` for `info` leaves the empty block of
`begin` in place. -/
def ManifestWriter.write (writer : ManifestWriter) (header : ManifestHeader) (info : Option Bytes)
    (topics actions : Bytes) (outCapacity : Nat) : Option Bytes := do
  let s ← writer.begin (writer.start outCapacity) header
  let s ← match info with
    | none => some s
    | some info => writer.putRawSourceInfo s info
  let s ← writer.putRawRecords s topics actions
  writer.finish s

/-! ## C strings -/

/-- The text a `const char*` stands for. -/
def cString (buffer : Bytes) : Bytes := buffer.takeWhile (· != 0)

def literal (text : String) : Bytes := text.toList.map fun c => c.toNat.toUInt8

/-! ## Records -/

/-- The `record_size` in front of a record. -/
def recordSize (front : Bytes) : Option Nat := (readU32 front 0).map UInt32.toNat

/-- One record: its size in four octets, then its content. -/
def IsRecord (data : Bytes) : Prop := SizedFields.IsField 4 recordSize data

/-- `run` is these records, one after the other. -/
structure Records (run : Bytes) (records : List Bytes) : Prop where
  run_eq : run = records.flatten
  framed : ∀ r ∈ records, IsRecord r
  /-- as many as a count can say -/
  counted : records.length < 2 ^ 16

/-- What the firmware relies on of the reader: the two runs lie one behind the
other within the payload, and are as many whole records as the head counts. -/
structure ReaderLaws (reader : ManifestReader) : Prop where
  adjacent : ∀ payload topics actions, reader.rawRecords payload = .ok (topics, actions) →
    actions.offset = topics.offset + topics.size
  within : ∀ payload topics actions, reader.rawRecords payload = .ok (topics, actions) →
    actions.offset + actions.size ≤ payload.length
  counted : ∀ payload header topics actions, reader.header payload = .ok header →
    reader.rawRecords payload = .ok (topics, actions) →
    ∃ ts as, Records (topics.octets payload) ts ∧ Records (actions.octets payload) as ∧
      ts.length = header.topicCount.toNat ∧ as.length = header.actionCount.toNat

/-! ## What is written -/

/-- A block without entries. -/
def kEmptySourceInfo : Bytes := [0, 0]

/-- The octets of a head before its name. -/
def kManifestHeadSize : Nat := 60

/-- `source_role` of a dongle. -/
def kSourceRoleDongle : UInt8 := 0x02

/-- A `source_info` block: the empty one, or one that some payload carries. -/
def IsSourceInfo (reader : ManifestReader) (info : Bytes) : Prop :=
  info = kEmptySourceInfo ∨
    2 ≤ info.length ∧ ∃ payload, reader.rawSourceInfo payload = .ok info

/-- The heads a catalog writes: one that some payload carries, under the name
another carries, cut to `n` octets and addressed to another request; and that of
a dongle. -/
inductive Describes (reader : ManifestReader) : ManifestHeader → Prop
  | relayed {payload payload' header named n} (request flags sourceFlags catalogIndex catalogCount)
      (carried : reader.header payload = .ok header) (success : header.status = kResultSuccess)
      (carried' : reader.header payload' = .ok named) :
      Describes reader
        { header with
          request, flags, sourceFlags, catalogIndex, catalogCount, errorCode := 0
          manifestFormatVersion := 3, topicCount := 0, actionCount := 0
          sourceName := cString (named.sourceName.take n) }
  | dongle {header} (success : header.status = kResultSuccess)
      (format : header.manifestFormatVersion = 3) (role : header.sourceRole = kSourceRoleDongle)
      (name : header.sourceName.length ≤ 64) : Describes reader header

/-- The head with the numbers of records that were written. -/
def ManifestHeader.withCounts (h : ManifestHeader) (topics actions : Nat) : ManifestHeader :=
  { h with topicCount := topics.toUInt16, actionCount := actions.toUInt16 }

/-- What the reader makes of a payload. -/
structure Carries (reader : ManifestReader) (payload : Bytes) (header : ManifestHeader)
    (info topics actions : Bytes) : Prop where
  header : reader.header payload = .ok header
  info : reader.rawSourceInfo payload = .ok info
  runs : ∃ t a, reader.rawRecords payload = .ok (t, a) ∧ t.octets payload = topics ∧
    a.octets payload = actions

/-- What the firmware relies on of the writer, in terms of what the reader makes
of the payload. The head comes back with the counts of the records that fitted,
the block as it was put, and of each run its first records: all of them when
there is room. -/
structure WriterLaws (reader : ManifestReader) (writer : ManifestWriter) : Prop where
  carries : ∀ header info topics actions outCapacity payload ts as,
    Describes reader header → (∀ block, info = some block → IsSourceInfo reader block) →
    Records topics ts → Records actions as →
    writer.write header info topics actions outCapacity = some payload →
    ∃ ts' as', ts' <+: ts ∧ as' <+: as ∧
      Carries reader payload (header.withCounts ts'.length as'.length)
        (info.getD kEmptySourceInfo) ts'.flatten as'.flatten ∧
      (kManifestHeadSize + header.sourceName.length + (info.getD kEmptySourceInfo).length +
        topics.length + actions.length ≤ outCapacity → ts' = ts ∧ as' = as)
  accepts : ∀ header info topics actions outCapacity ts as,
    Describes reader header → (∀ block, info = some block → IsSourceInfo reader block) →
    Records topics ts → Records actions as →
    kManifestHeadSize + header.sourceName.length + (info.getD kEmptySourceInfo).length ≤
      outCapacity →
    (writer.write header info topics actions outCapacity).isSome = true

/-- A payload is its head with the name, its block and its records, and nothing else. -/
def WholePayload (reader : ManifestReader) : Prop :=
  ∀ payload header info topics actions, Carries reader payload header info topics actions →
    payload.length = kManifestHeadSize + header.sourceName.length + info.length +
      topics.length + actions.length

/-- A payload fits the buffer the writer was started on. -/
def WithinBuffer (writer : ManifestWriter) : Prop :=
  ∀ header info topics actions outCapacity payload,
    writer.write header info topics actions outCapacity = some payload →
      payload.length ≤ outCapacity

end BallyDongle.Btp
