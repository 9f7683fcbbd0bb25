import KineticAtlas.Library.Texts

/-!
The registration form and the parser of the issue it opens. GitHub renders a
submitted form as one block per field: the label as a header, a blank line, the
value, a blank line. The parser recognises a header by the first phrase of a
fixed chain that occurs in it and stores the stripped lines below under the key
of that phrase. The blocks of two labels are not recognised at all, and one of
them holds a field that the check of required fields insists on.
-/
namespace KineticAtlas.IssueForm

open Library.Texts

/-- The keys of the dictionary `data`. -/
inductive Key
  | name
  | version
  | tld
  | desc
  | url
  | repo
  | integrations
  | binary
  | logoUrl
  | seed
  | networkId
  | networkType
  | localBindIp
  | apiPort
  | nodes
  | ipfs
  deriving DecidableEq

abbrev Data := Key → Option Str

def headerPrefix : Str := "### "

def noResponse : Str := "_No response_"

/-- The `elif` chain over the lower-cased header, in the order of the source. -/
def headerChain : List (Str × Key) :=
  [("network name", .name), ("tld suffix", .tld), ("description", .desc),
    ("project website", .url), ("repository url", .repo),
    ("platform integrations", .integrations), ("binary download", .binary),
    ("logo url", .logoUrl), ("seed domain", .seed), ("network id", .networkId),
    ("local bind ip", .localBindIp), ("api port", .apiPort), ("bootstrap nodes", .nodes),
    ("ipfs gateway", .ipfs)]

/-- `str.lower()`, as far as a search for ASCII text can tell: of the characters
outside ASCII only the Kelvin sign and the dotted capital I have ASCII in their
lower case. Other capitals outside ASCII are left as they are here. -/
def lower (s : Str) : Str :=
  s.flatMap fun c =>
    if c = Char.ofNat 0x212A then ['k']
    else if c = Char.ofNat 0x130 then ['i', Char.ofNat 0x307]
    else [c.toLower]

def keyOf (header : Str) : Option Key :=
  (headerChain.find? fun entry => entry.1 <:+: header).map Prod.snd

structure ParseState where
  data : Data
  currentKey : Option Key
  currentVal : List Str

/-- `if current_key: data[current_key] = '\n'.join(current_val).strip()`. -/
def flush (s : ParseState) : Data :=
  match s.currentKey with
  | some key => Function.update s.data key (some (strip (['\n'].intercalate s.currentVal)))
  | none => s.data

def parseLine (s : ParseState) (line : Str) : ParseState :=
  if headerPrefix <+: line then
    ⟨flush s, keyOf (lower (strip (line.drop 4))), []⟩
  else if s.currentKey.isSome ∧ line ≠ noResponse then
    { s with currentVal := s.currentVal ++ [line] }
  else s

def parseIssueBody (body : Str) : Data :=
  flush ((body.splitOn '\n').foldl parseLine ⟨fun _ => none, none, []⟩)

/-- The list `required` of `main`. -/
def required : List Key :=
  [.version, .tld, .desc, .url, .seed, .networkId, .localBindIp, .apiPort]

/-- The key named in the error on which `main` exits, if it exits. -/
def missingRequired (data : Data) : Option Key :=
  required.find? fun req => (data req).getD [] = []

/-- The input fields of the form, in form order. -/
inductive Field
  | version
  | networkId
  | tldSuffix
  | networkType
  | description
  | website
  | repository
  | logoUrl
  | integrations
  | seedDomain
  | bootstrapNodes
  | localBindIp
  | apiPort
  | binaryDownload
  | ipfsGateway
  | preflight
  deriving DecidableEq

namespace Field

def formOrder : List Field :=
  [version, networkId, tldSuffix, networkType, description, website, repository, logoUrl,
    integrations, seedDomain, bootstrapNodes, localBindIp, apiPort, binaryDownload, ipfsGateway,
    preflight]

def label : Field → Str
  | version => "🔖 Protocol Version"
  | networkId => "🆔 Network ID"
  | tldSuffix => "🏷️ TLD Suffix"
  | networkType => "🌍 Network Type"
  | description => "📝 Short Description"
  | website => "🌐 Project Website"
  | repository => "💻 Repository URL (Optional)"
  | logoUrl => "🖼️ Logo URL"
  | integrations => "🔌 Platform Integrations"
  | seedDomain => "📡 Seed Domain"
  | bootstrapNodes => "🚀 Hardcoded Bootstrap Nodes"
  | localBindIp => "🖥️ Local Bind IP"
  | apiPort => "🔌 API Port"
  | binaryDownload => "📦 Binary Download URL"
  | ipfsGateway => "🪐 IPFS Gateway (Optional)"
  | preflight => "✅ Pre-flight Checklist"

/-- `validations: required: true`. -/
def isRequired : Field → Bool
  | repository | integrations | binaryDownload | ipfsGateway => false
  | _ => true

end Field

/-- The field whose value `main` expects under the key. It never looks up `name`. -/
def Key.field : Key → Option Field
  | name => none
  | version => some .version
  | tld => some .tldSuffix
  | desc => some .description
  | url => some .website
  | repo => some .repository
  | integrations => some .integrations
  | binary => some .binaryDownload
  | logoUrl => some .logoUrl
  | seed => some .seedDomain
  | networkId => some .networkId
  | networkType => some .networkType
  | localBindIp => some .localBindIp
  | apiPort => some .apiPort
  | nodes => some .bootstrapNodes
  | ipfs => some .ipfsGateway

/-- A submitted form. No line of a value can be taken for a header or for the
placeholder of an empty field. -/
structure Form where
  value : Field → Str
  required_filled : ∀ f, f.isRequired → value f ≠ []
  lines_plain : ∀ f, ∀ l ∈ (value f).splitOn '\n', ¬ headerPrefix <+: l ∧ l ≠ noResponse

namespace Form

def shown (form : Form) (f : Field) : Str :=
  if form.value f = [] then noResponse else form.value f

def block (form : Form) (f : Field) : List Str :=
  [headerPrefix ++ f.label, [], form.shown f, []]

def render (form : Form) : Str :=
  ['\n'].intercalate (Field.formOrder.flatMap form.block)

/-- The parser gives every field that `main` looks up as its trimmed value. -/
def Agrees (form : Form) : Prop :=
  ∀ k f, k.field = some f → parseIssueBody form.render k = some (strip (form.value f))

end Form

/-- The key under which the block of a field is stored. -/
def Field.parsedKey (f : Field) : Option Key := keyOf (lower (strip f.label))

theorem parsedKey_eq (f : Field) :
    f.parsedKey = match f with
      | .version | .networkType | .preflight => none
      | .networkId => some .networkId
      | .tldSuffix => some .tld
      | .description => some .desc
      | .website => some .url
      | .repository => some .repo
      | .logoUrl => some .logoUrl
      | .integrations => some .integrations
      | .seedDomain => some .seed
      | .bootstrapNodes => some .nodes
      | .localBindIp => some .localBindIp
      | .apiPort => some .apiPort
      | .binaryDownload => some .binary
      | .ipfsGateway => some .ipfs := by
  cases f <;> decide +kernel

theorem parsedKey_iff (f : Field) (k : Key) :
    f.parsedKey = some k ↔ k.field = some f ∧ k ≠ .version ∧ k ≠ .networkType := by
  constructor
  · intro h
    rw [parsedKey_eq] at h
    cases f <;> cases h <;> exact ⟨rfl, by decide, by decide⟩
  · rintro ⟨hfield, hversion, htype⟩
    rw [parsedKey_eq]
    cases k <;> cases hfield <;> first | rfl | contradiction

theorem flush_apply (s : ParseState) (k : Key) :
    flush s k = if s.currentKey = some k then
      some (strip (['\n'].intercalate s.currentVal)) else s.data k := by
  unfold flush
  cases s.currentKey with
  | none => simp
  | some key =>
    by_cases hk : key = k
    · subst key
      simp
    · simp [hk, Ne.symm hk]

/-- Below a header the lines collect until the next header. -/
theorem foldl_body (ls : List Str) (h : ∀ l ∈ ls, ¬ headerPrefix <+: l) (s : ParseState) :
    ls.foldl parseLine s = { s with
      currentVal := if s.currentKey.isSome then
        s.currentVal ++ ls.filter (· ≠ noResponse) else s.currentVal } := by
  induction ls generalizing s with
  | nil => simp
  | cons l rest ih =>
    have hl := h l List.mem_cons_self
    rw [List.foldl_cons, parseLine, if_neg hl, ih fun l' hl' => h l' (List.mem_cons_of_mem l hl')]
    by_cases hkey : s.currentKey.isSome <;> by_cases hno : l = noResponse <;> simp [hkey, hno]

namespace Form

variable (form : Form)

def bodyLines (f : Field) : List Str := [] :: (form.shown f).splitOn '\n' ++ [[]]

theorem bodyLines_no_header (f : Field) : ∀ l ∈ form.bodyLines f, ¬ headerPrefix <+: l := by
  intro l hl
  have hcases : l = [] ∨ l ∈ (form.shown f).splitOn '\n' := by
    simp only [bodyLines, List.mem_append, List.mem_cons, List.not_mem_nil, or_false] at hl
    tauto
  rcases hcases with rfl | hmem
  · decide
  · unfold shown at hmem
    split at hmem
    · obtain rfl : l = noResponse := by
        rw [List.splitOn_eq_singleton (by decide)] at hmem
        simpa using hmem
      decide
    · exact (form.lines_plain f l hmem).1

/-- The blank lines and the placeholder leave no trace in the stored value. -/
theorem strip_bodyLines (f : Field) :
    strip (['\n'].intercalate ((form.bodyLines f).filter (· ≠ noResponse))) =
      strip (form.value f) := by
  unfold bodyLines shown
  split
  · rename_i hempty
    rw [hempty]
    decide
  · have hkept : ([] :: (form.value f).splitOn '\n' ++ [[]]).filter (· ≠ noResponse) =
        [] :: (form.value f).splitOn '\n' ++ [[]] := by
      refine List.filter_eq_self.mpr fun l hl => ?_
      simp only [List.mem_append, List.mem_cons, List.not_mem_nil, or_false] at hl
      rcases hl with (rfl | hmem) | rfl
      · decide
      · simpa using (form.lines_plain f l hmem).2
      · decide
    rw [hkept, intercalate_concat '\n' _ (by simp),
      List.intercalate_cons_of_ne_nil (List.splitOn_ne_nil '\n' _), List.intercalate_splitOn]
    unfold strip
    rw [trim_concat_of_pos (by decide)]
    exact trim_cons_of_pos (by decide) _

theorem block_lines (f : Field) :
    (form.block f).flatMap (fun part => part.splitOn '\n') =
      (headerPrefix ++ f.label) :: form.bodyLines f := by
  have hheader : '\n' ∉ headerPrefix ++ f.label := by
    cases f <;> decide
  simp only [block, bodyLines, List.flatMap_cons, List.flatMap_nil,
    List.splitOn_eq_singleton hheader, List.splitOn_nil]
  simp

/-- A block adds its field under the key its label is recognised by. -/
def store (d : Data) (f : Field) : Data := fun k =>
  if f.parsedKey = some k then some (strip (form.value f)) else d k

theorem flush_block (f : Field) (s : ParseState) :
    flush (((headerPrefix ++ f.label) :: form.bodyLines f).foldl parseLine s) =
      form.store (flush s) f := by
  have hheader : parseLine s (headerPrefix ++ f.label) = ⟨flush s, f.parsedKey, []⟩ := by
    rw [parseLine, if_pos (List.prefix_append headerPrefix f.label)]
    rfl
  rw [List.foldl_cons, hheader, foldl_body _ (form.bodyLines_no_header f)]
  funext k
  rw [flush_apply, store]
  by_cases hk : f.parsedKey = some k
  · simp only [hk, Option.isSome_some, if_true, List.nil_append]
    rw [form.strip_bodyLines]
  · simp only [if_neg hk]

theorem flush_blocks (fields : List Field) (s : ParseState) :
    flush ((fields.flatMap fun f => (headerPrefix ++ f.label) :: form.bodyLines f).foldl
      parseLine s) = fields.foldl form.store (flush s) := by
  induction fields generalizing s with
  | nil => rfl
  | cons f rest ih =>
    rw [List.flatMap_cons, List.foldl_append, ih, form.flush_block, List.foldl_cons]

theorem parseIssueBody_render :
    parseIssueBody form.render = Field.formOrder.foldl form.store fun _ => none := by
  have hlines : form.render.splitOn '\n' =
      Field.formOrder.flatMap fun f => (headerPrefix ++ f.label) :: form.bodyLines f := by
    rw [render, splitOn_intercalate_flatMap '\n' _ (by simp [Field.formOrder, block]),
      List.flatMap_assoc]
    exact congrArg (List.flatMap · Field.formOrder) (funext form.block_lines)
  rw [parseIssueBody, hlines]
  exact form.flush_blocks Field.formOrder _

theorem foldl_store_none (k : Key) (h : ∀ f : Field, f.parsedKey ≠ some k) (fields : List Field)
    (d : Data) : fields.foldl form.store d k = d k := by
  induction fields generalizing d with
  | nil => rfl
  | cons f rest ih => rw [List.foldl_cons, ih, store, if_neg (h f)]

/-- No two fields are stored under one key, so nothing overwrites a value. -/
theorem foldl_store_some (k : Key) (f : Field) (hf : f.parsedKey = some k) (fields : List Field)
    (d : Data) :
    fields.foldl form.store d k = if f ∈ fields then some (strip (form.value f)) else d k := by
  induction fields generalizing d with
  | nil => simp
  | cons g rest ih =>
    rw [List.foldl_cons, ih, store]
    by_cases hg : g.parsedKey = some k
    · obtain rfl : f = g := by
        have hkf := ((parsedKey_iff f k).mp hf).1
        have hkg := ((parsedKey_iff g k).mp hg).1
        exact Option.some.inj (hkf.symm.trans hkg)
      simp [hf]
    · have hne : f ≠ g := fun heq => hg (heq ▸ hf)
      simp [hg, hne]

theorem parseIssueBody_of_parsedKey (k : Key) (f : Field) (hf : f.parsedKey = some k) :
    parseIssueBody form.render k = some (strip (form.value f)) := by
  have hmem : f ∈ Field.formOrder := by
    cases f <;> decide
  rw [form.parseIssueBody_render, form.foldl_store_some k f hf, if_pos hmem]

theorem parseIssueBody_unrecognised (k : Key) (h : ∀ f : Field, f.parsedKey ≠ some k) :
    parseIssueBody form.render k = none := by
  rw [form.parseIssueBody_render, form.foldl_store_none k h]

theorem parseIssueBody_version : parseIssueBody form.render .version = none :=
  form.parseIssueBody_unrecognised .version fun f hf => ((parsedKey_iff f .version).mp hf).2.1 rfl

theorem parseIssueBody_networkType : parseIssueBody form.render .networkType = none :=
  form.parseIssueBody_unrecognised .networkType fun f hf =>
    ((parsedKey_iff f .networkType).mp hf).2.2 rfl

theorem missingRequired_version :
    missingRequired (parseIssueBody form.render) = some .version := by
  rw [missingRequired, required, List.find?_cons_of_pos]
  simp [form.parseIssueBody_version]

end Form

/-- No form survives the round trip: the version and the network type are lost,
everything else is kept, and `main` stops at the missing version. -/
theorem form_never_agrees (form : Form) :
    ¬ form.Agrees ∧
      missingRequired (parseIssueBody form.render) = some .version ∧
      ∀ k f, k.field = some f →
        (parseIssueBody form.render k = some (strip (form.value f)) ↔
          k ≠ .version ∧ k ≠ .networkType) := by
  refine ⟨fun h => ?_, form.missingRequired_version, fun k f hfield => ⟨fun h => ?_, fun h => ?_⟩⟩
  · have hversion := h .version .version rfl
    rw [form.parseIssueBody_version] at hversion
    cases hversion
  · constructor
    · rintro rfl
      rw [form.parseIssueBody_version] at h
      cases h
    · rintro rfl
      rw [form.parseIssueBody_networkType] at h
      cases h
  · exact form.parseIssueBody_of_parsedKey k f ((parsedKey_iff f k).mpr ⟨hfield, h⟩)

/-- A form with every field filled in. -/
def filledForm : Form where
  value
    | .version => "1.0"
    | .networkId => "kinetic"
    | .tldSuffix => "kin"
    | .networkType => "Public"
    | .description => "A fork."
    | .website => "https://host"
    | .repository => "https://git"
    | .logoUrl => "https://logo"
    | .integrations =>
      "- [x] Atlas Global Registry (Enable public discoverability)\n".toList ++
        "- [ ] Browser Extension Support (Allow interactions via web extension)\n".toList ++
        "- [ ] Desktop GUI Client (Provide a downloadable graphical interface)\n".toList ++
        "- [ ] Mobile App Integration (Support Android & iOS connections)".toList
    | .seedDomain => "seed.host"
    | .bootstrapNodes => "/p2p/A\n/p2p/B\n/p2p/C"
    | .localBindIp => "127.0.0.2"
    | .apiPort => "16002"
    | .binaryDownload => "https://bin"
    | .ipfsGateway => "https://ipfs"
    | .preflight =>
      ("- [x] I confirm that my Seed Domain and Bootstrap Nodes are currently online.\n".toList ++
        "- [x] I confirm my logo is under 50KB and follows the PNG/SVG requirement.".toList)
  required_filled f _ := by cases f <;> decide
  lines_plain f := by cases f <;> decide +kernel

theorem filled_form_loses_version :
    filledForm.value .version = "1.0".toList ∧
      parseIssueBody filledForm.render .version = none ∧
      missingRequired (parseIssueBody filledForm.render) = some .version ∧
      ¬ filledForm.Agrees := by
  refine ⟨rfl, filledForm.parseIssueBody_version, filledForm.missingRequired_version, fun h => ?_⟩
  have hversion := h .version .version rfl
  rw [filledForm.parseIssueBody_version] at hversion
  cases hversion

end KineticAtlas.IssueForm
