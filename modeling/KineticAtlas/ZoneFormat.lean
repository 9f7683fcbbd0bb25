import KineticAtlas.ProxyHandler
import KineticAtlas.Library.Json

/-!
How a zone is decoded (DnsZone and DnsRecord in types.rs). A record names its type in
one member and holds its value in another; the catch-all for types added later is a
variant without content. The main result says what such a variant lets through: a
record without a value. One record of a newer type with a value and the whole zone is
lost.
-/
namespace KineticAtlas.ZoneFormat

open Library.Texts Library.Json KineticAtlas.Types ProxyHandler

/-- `Ipv4Addr::from_str` and `Ipv6Addr::from_str`. -/
structure AddressParsers where
  ipv4 : Str → Option (BitVec 32)
  ipv6 : Str → Option (BitVec 128)

/-- The derived reader of an adjacently tagged enum, once tag and content are known. -/
def decodeTagged (parsers : AddressParsers) (tag : Str) (content : Option Value) :
    Option DnsRecord :=
  let text := content.bind asStr
  if tag = "A".toList then (text.bind parsers.ipv4).map .a
  else if tag = "AAAA".toList then (text.bind parsers.ipv6).map .aaaa
  else if tag = "CNAME".toList then text.map .cname
  else if tag = "TXT".toList then text.map .txt
  else if tag = "PeerId".toList then text.map .peerId
  else if tag = "KID".toList then text.map .kid
  else if tag = "IPFS".toList then text.map .ipfs
  else
    -- the variant marked `other` is a unit variant: its content may be missing or null
    match content with
    | none => some .other
    | some .null => some .other
    | some _ => none

def decodeRecord (parsers : AddressParsers) : Value → Option DnsRecord
  | .obj members =>
    match member "type".toList members, member "value".toList members with
    | some (some (.str tag)), some content => decodeTagged parsers tag content
    | _, _ => none
  | .arr [.str tag, content] => decodeTagged parsers tag (some content)
  | _ => none

def decodeRecords (parsers : AddressParsers) : Value → Option (Str → Option (List DnsRecord)) :=
  asMapOf (asListOf (decodeRecord parsers))

def decodeZone (parsers : AddressParsers) : Value → Option DnsZone
  | .obj members =>
    (defaulted (decodeRecords parsers) (fun _ => none) (member "records".toList members)).map
      DnsZone.mk
  | .arr [] => some ⟨fun _ => none⟩
  | .arr [records] => (decodeRecords parsers records).map DnsZone.mk
  | _ => none

def knownTypes : List Str :=
  ["A".toList, "AAAA".toList, "CNAME".toList, "TXT".toList, "PeerId".toList, "KID".toList,
    "IPFS".toList]

/-- A well-formed record of a known type: the type, the value and the record it is. -/
inductive Known (parsers : AddressParsers) : Str → Option Value → DnsRecord → Prop
  | a {text addr} (h : parsers.ipv4 text = some addr) :
    Known parsers "A".toList (some (.str text)) (.a addr)
  | aaaa {text addr} (h : parsers.ipv6 text = some addr) :
    Known parsers "AAAA".toList (some (.str text)) (.aaaa addr)
  | cname (name) : Known parsers "CNAME".toList (some (.str name)) (.cname name)
  | txt (text) : Known parsers "TXT".toList (some (.str text)) (.txt text)
  | peerId (id) : Known parsers "PeerId".toList (some (.str id)) (.peerId id)
  | kid (id) : Known parsers "KID".toList (some (.str id)) (.kid id)
  | ipfs (cid) : Known parsers "IPFS".toList (some (.str cid)) (.ipfs cid)

/-- A record object as it may stand in a zone, with the record it should be read as. -/
structure RecordJson (parsers : AddressParsers) where
  members : Members
  tag : Str
  content : Option Value
  record : DnsRecord
  tagged : member "type".toList members = some (some (.str tag))
  valued : member "value".toList members = some content
  meaning : Known parsers tag content record ∨ (tag ∉ knownTypes ∧ record = .other)

/-- A zone object whose lists mix known records with records of other types. -/
structure ZoneJson (parsers : AddressParsers) where
  members : Members
  entries : List (Str × List (RecordJson parsers))
  listed :
    member "records".toList members =
        some (some (.obj (entries.map fun e => (e.1, .arr (e.2.map fun r => .obj r.members))))) ∨
      (member "records".toList members = some none ∧ entries = [])

variable {parsers : AddressParsers}

/-- What the catch-all lets through. -/
def RecordJson.Accepted (r : RecordJson parsers) : Prop :=
  r.tag ∉ knownTypes → r.content = none ∨ r.content = some .null

namespace ZoneJson

/-- The records of a key, each as it should be read. -/
def recordsAt (z : ZoneJson parsers) (key : Str) : Option (List DnsRecord) :=
  (lastEntry key z.entries).map fun records => records.map RecordJson.record

/-- The zone decodes, every record stands in its place, and the handler finds the targets. -/
def Unpoisoned (z : ZoneJson parsers) : Prop :=
  ∃ zone, decodeZone parsers (.obj z.members) = some zone ∧ zone.records = z.recordsAt ∧
    ∀ key records target rest, z.recordsAt key = some records →
      records.filter isTarget = target :: rest → targetsOf zone key = .ok (target :: rest)

end ZoneJson

theorem decodeTagged_known {tag : Str} {content : Option Value} {record : DnsRecord}
    (h : Known parsers tag content record) : decodeTagged parsers tag content = some record := by
  cases h with
  | a h =>
    show Option.map DnsRecord.a (parsers.ipv4 _) = _
    rw [h, Option.map_some]
  | aaaa h =>
    show Option.map DnsRecord.aaaa (parsers.ipv6 _) = _
    rw [h, Option.map_some]
  | cname | txt | peerId | kid | ipfs => rfl

theorem decodeTagged_unknown {tag : Str} (content : Option Value) (h : tag ∉ knownTypes) :
    decodeTagged parsers tag content =
      match content with
      | none => some .other
      | some .null => some .other
      | some _ => none := by
  simp only [knownTypes, List.mem_cons, List.not_mem_nil, or_false, not_or] at h
  obtain ⟨ha, haaaa, hcname, htxt, hpeer, hkid, hipfs⟩ := h
  unfold decodeTagged
  simp only [ha, haaaa, hcname, htxt, hpeer, hkid, hipfs, if_false]

theorem decodeRecord_eq (r : RecordJson parsers) :
    decodeRecord parsers (.obj r.members) = decodeTagged parsers r.tag r.content := by
  simp only [decodeRecord, r.tagged, r.valued]

theorem decodeRecord_of_accepted {r : RecordJson parsers} (h : r.Accepted) :
    decodeRecord parsers (.obj r.members) = some r.record := by
  rw [decodeRecord_eq]
  rcases r.meaning with hknown | ⟨hunknown, hother⟩
  · exact decodeTagged_known hknown
  · rw [decodeTagged_unknown r.content hunknown, hother]
    rcases h hunknown with hc | hc <;> rw [hc]

theorem accepted_of_decodeRecord {r : RecordJson parsers} {record : DnsRecord}
    (h : decodeRecord parsers (.obj r.members) = some record) : r.Accepted := by
  intro hunknown
  rw [decodeRecord_eq, decodeTagged_unknown r.content hunknown] at h
  cases hc : r.content with
  | none => exact Or.inl rfl
  | some value =>
    cases value with
    | null => exact Or.inr rfl
    | bool | int | float | str | arr | obj => simp [hc] at h

/-- A list of records is read when each of them is accepted. -/
theorem decode_list {records : List (RecordJson parsers)} (h : ∀ r ∈ records, r.Accepted) :
    asListOf (decodeRecord parsers) (.arr (records.map fun r => .obj r.members)) =
      some (records.map RecordJson.record) :=
  asListOf_map _ fun r hr => decodeRecord_of_accepted (h r hr)

theorem decode_entries {entries : List (Str × List (RecordJson parsers))}
    (h : ∀ e ∈ entries, ∀ r ∈ e.2, r.Accepted) :
    decodeRecords parsers
        (.obj (entries.map fun e => (e.1, .arr (e.2.map fun r => .obj r.members)))) =
      some fun key => (lastEntry key entries).map fun records => records.map RecordJson.record := by
  rw [decodeRecords, asMapOf, List.mapM_map,
    mapM_of_forall fun e : Str × List (RecordJson parsers) => (e.1, e.2.map RecordJson.record)]
  · rw [Option.map_some]
    congr 1
    funext key
    exact lastEntry_map _ key entries
  · intro e he
    rw [Function.comp_apply, decode_list (h e he), Option.map_some]

theorem accepted_of_decode_entries {entries : List (Str × List (RecordJson parsers))}
    {records : Str → Option (List DnsRecord)}
    (h : decodeRecords parsers
        (.obj (entries.map fun e => (e.1, .arr (e.2.map fun r => .obj r.members)))) =
      some records) :
    ∀ e ∈ entries, ∀ r ∈ e.2, r.Accepted := by
  rw [decodeRecords, asMapOf, List.mapM_map] at h
  obtain ⟨read, hread, -⟩ := Option.map_eq_some_iff.mp h
  intro e he r hr
  obtain ⟨entry, hentry⟩ := read_of_mapM hread e he
  obtain ⟨list, hlist, -⟩ := Option.map_eq_some_iff.mp hentry
  rw [asListOf, List.mapM_map] at hlist
  obtain ⟨record, hrecord⟩ := read_of_mapM hlist r hr
  exact accepted_of_decodeRecord hrecord

theorem targetsOf_records {zone : DnsZone} {key : Str} {records rest : List DnsRecord}
    {target : DnsRecord} (hrecords : zone.records key = some records)
    (htargets : records.filter isTarget = target :: rest) :
    targetsOf zone key = .ok (target :: rest) := by
  have hof : recordsOf zone key = .ok records := by
    unfold recordsOf
    rw [hrecords]
  unfold targetsOf
  simp only [hof, htargets]

/-- A zone survives its records of unknown types exactly when none of them has a value. -/
theorem unpoisoned_iff (z : ZoneJson parsers) :
    z.Unpoisoned ↔ ∀ e ∈ z.entries, ∀ r ∈ e.2, r.Accepted := by
  constructor
  · rintro ⟨zone, hzone, -⟩
    rcases z.listed with hlisted | ⟨-, hnil⟩
    · rw [decodeZone, defaulted, hlisted] at hzone
      obtain ⟨records, hrecords, -⟩ := Option.map_eq_some_iff.mp hzone
      exact accepted_of_decode_entries hrecords
    · simp [hnil]
  · intro h
    have hdecode : decodeZone parsers (.obj z.members) = some ⟨z.recordsAt⟩ := by
      rcases z.listed with hlisted | ⟨habsent, hnil⟩
      · rw [decodeZone, defaulted, hlisted, Option.bind_some, Option.elim_some, decode_entries h]
        rfl
      · rw [decodeZone, defaulted, habsent, Option.bind_some, Option.elim_none, Option.map_some]
        congr 2
        funext key
        simp [ZoneJson.recordsAt, hnil, lastEntry]
    refine ⟨⟨z.recordsAt⟩, hdecode, rfl, fun key records target rest hrecords htargets => ?_⟩
    show targetsOf ⟨z.recordsAt⟩ key = .ok (target :: rest)
    exact targetsOf_records hrecords htargets

def loopbackOnly : AddressParsers where
  ipv4 text := if text = "127.0.0.1".toList then some 0x7f000001 else none
  ipv6 text := if text = "::1".toList then some 1 else none

def ipfsRecord : RecordJson loopbackOnly where
  members := [("type", .str "IPFS"), ("value", .str "cid")]
  tag := "IPFS"
  content := some (.str "cid")
  record := .ipfs "cid"
  tagged := rfl
  valued := rfl
  meaning := Or.inl (.ipfs "cid")

def mxRecord (value : Value) : RecordJson loopbackOnly where
  members := [("type", .str "MX"), ("value", value)]
  tag := "MX"
  content := some value
  record := .other
  tagged := rfl
  valued := rfl
  meaning := Or.inr ⟨by decide, rfl⟩

def mailZone (value : Value) : ZoneJson loopbackOnly where
  members := [("records", .obj [("@", .arr [.obj ipfsRecord.members, .obj (mxRecord value).members])])]
  entries := [("@", [ipfsRecord, mxRecord value])]
  listed := Or.inl rfl

/-- The DHT answers with a reveal whose payload is the zone. -/
def mailLibraries (value : Value) : Libraries Bytes :=
  { sampleLibraries with
    parseZone := fun bytes =>
      if bytes = zoneJson then decodeZone loopbackOnly (.obj (mailZone value).members) else none }

/-- A mail exchanger with its host name poisons the zone: the domain no longer resolves. -/
theorem mail_record_poisons :
    ¬ (mailZone (.str "mail.a.kin")).Unpoisoned ∧
      (handleProxyRequest (mailLibraries (.str "mail.a.kin")) globalDefaults kinRegistry
        revealAnswered (requestFor "a.kin")).result = .error invalidZone := by
  constructor
  · rintro ⟨zone, hzone, -⟩
    have hnone : decodeZone loopbackOnly (.obj (mailZone (.str "mail.a.kin")).members) = none := rfl
    rw [hnone] at hzone
    cases hzone
  · decide +kernel

/-- Without a value the same record does no harm. -/
theorem bare_mail_record_harmless : (mailZone .null).Unpoisoned := by
  apply (unpoisoned_iff (mailZone .null)).mpr
  intro e he r hr _
  obtain rfl : e = ("@".toList, [ipfsRecord, mxRecord .null]) := List.mem_singleton.mp he
  rcases List.mem_cons.mp hr with rfl | hr
  · contradiction
  · obtain rfl := List.mem_singleton.mp hr
    exact Or.inr rfl

end KineticAtlas.ZoneFormat
