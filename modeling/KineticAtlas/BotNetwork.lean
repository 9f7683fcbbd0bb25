import KineticAtlas.RegistrationBot
import KineticAtlas.Library.IpAddresses

/-!
What the registration bot does on the network (check_url and the logo check of main in
validate_registration.py). Names are resolved, and addresses that are not public turned
down, before a request is sent; but `urlopen` follows redirects by itself. The servers are
free in their answers: every request meets a reply of its own.
-/
namespace KineticAtlas.BotNetwork

open Library.Texts Library.IpAddresses IssueForm RegistrationBot

structure ParsedUrl where
  scheme : Str
  hostname : Option Str
  path : Str
  query : Str

structure Request where
  method : Str
  url : Str
  host : Str

/-- A response, whose body is missing if it breaks off while it is read. -/
structure Response where
  contentLength : Option Str
  contentType : Option Str
  body : Option Bytes

/-- What comes of a request. A redirect names a URL, for whose host the addresses are tried
in turn that it resolves to; what comes of that is again a reply. -/
inductive Reply
  | failed
  | answered (response : Response)
  | redirected (url : Str) (addresses : List Str) (reply : Reply)

/-- The surroundings of a run: two functions of the standard library, the name service and
the servers. Names are resolved twice, for the seed domain and for the logo, and up to four
requests are sent; they are told apart by these numbers. -/
structure Network where
  urlparse : Str → Option ParsedUrl
  readIp : Str → Option IpAddress
  gethostbyname : ℕ → Str → Option Str
  reply : ℕ → Request → Reply

def isPublicIp (readIp : Str → Option IpAddress) (ipStr : Str) : Bool :=
  match readIp ipStr with
  | some ip =>
    isGlobal ip &&
      !(isPrivate ip || isLoopback ip || isLinkLocal ip || isMulticast ip || isReserved ip)
  | none => false

/-- The addresses that the repository's own test of the guard tries. -/
example : ([ipv4 8 8 8 8, ipv4 1 1 1 1, ipv4 127 0 0 1, ipv4 192 168 1 5, ipv4 169 254 169 254,
    ipv4 10 0 0 1].map fun ip => isPublicIp (fun _ => some (.v4 ip)) []) =
      [true, true, false, false, false, false] := by
  decide

def maxRepeats : ℕ := 4

def maxRedirections : ℕ := 10

/-- The redirect handler goes on unless it seems to go in circles. -/
def follows (visited : List Str) (url : Str) : Bool :=
  visited.count url < maxRepeats ∧ visited.dedup.length < maxRedirections

/-- The addresses contacted after the first one, and the response in the end. -/
def Reply.follow (visited : List Str) : Reply → List Str × Option Response
  | .failed => ([], none)
  | .answered response => ([], some response)
  | .redirected url addresses reply =>
    if follows visited url then
      (addresses ++ (reply.follow (url :: visited)).1, (reply.follow (url :: visited)).2)
    else ([], none)

/-- `urlopen` of a URL whose host is an address. -/
def urlopen (net : Network) (n : ℕ) (ip : Str) (req : Request) : List Str × Option Response :=
  (ip :: ((net.reply n req).follow []).1, ((net.reply n req).follow []).2)

structure Checked where
  contacts : List Str
  reached : Bool

def seedRequest (scheme ip host : Str) (parsed : ParsedUrl) : Request :=
  ⟨"GET",
    scheme ++ "://".toList ++ ip ++ if parsed.path = [] then "/".toList else parsed.path, host⟩

def withScheme (url : Str) : Str := if "://".toList <:+: url then url else "http://".toList ++ url

/-- Without an address the exception handler fails as well, and sends nothing. -/
def checkUrl (net : Network) (url : Str) : Checked :=
  match net.urlparse (withScheme url) with
  | none => ⟨[], false⟩
  | some parsed =>
    match parsed.hostname.filter (· ≠ []) with
    | none => ⟨[], false⟩
    | some host =>
      match net.gethostbyname 0 host with
      | none => ⟨[], false⟩
      | some ip =>
        if isPublicIp net.readIp ip then
          let http := urlopen net 0 ip (seedRequest "http" ip host parsed)
          match http.2 with
          | some _ => ⟨http.1, true⟩
          | none =>
            let https := urlopen net 1 ip (seedRequest "https" ip host parsed)
            ⟨http.1 ++ https.1, https.2.isSome⟩
        else ⟨[], false⟩

def maxLogo : ℤ := 50000

/-- The text of the exception is not modelled. -/
def logoFailed : Str := "Error validating or downloading logo"

/-- What the bot makes of the answer to its HEAD request: an extension for the file. -/
def checkHead (response : Response) : Except Str Str :=
  let tooLarge : Except Str Bool :=
    match response.contentLength.filter (· ≠ []) with
    | none => .ok false
    | some length =>
      match pyInt length with
      | none => .error logoFailed
      | some n => .ok (maxLogo < n)
  match tooLarge with
  | .error message => .error message
  | .ok true =>
    .error ("Error: Logo size (".toList ++ response.contentLength.getD [] ++
      " bytes) exceeds 50KB limit.".toList)
  | .ok false =>
    if response.contentType = some "image/png".toList then .ok ".png"
    else if response.contentType = some "image/svg+xml".toList then .ok ".svg"
    else .error ("Error: Logo must be PNG or SVG. Got ".toList ++
      response.contentType.getD "None".toList ++ ".".toList)

structure LogoRun where
  contacts : List Str
  /-- The file that was opened for writing, with what it holds in the end. -/
  file : Option (Str × Bytes)
  result : Except Str Str

def logoPath (tld ext : Str) : Str := "logos/".toList ++ tld ++ ext

def logoRequest (method ip host : Str) (parsed : ParsedUrl) : Request :=
  ⟨method, parsed.scheme ++ "://".toList ++ ip ++ parsed.path ++
    if parsed.query = [] then [] else '?' :: parsed.query, host⟩

def storeLogo (net : Network) (tld url : Str) : LogoRun :=
  match net.urlparse url with
  | none => ⟨[], none, .error logoFailed⟩
  | some parsed =>
    match parsed.hostname.filter (· ≠ []) with
    | none => ⟨[], none, .error logoFailed⟩
    | some host =>
      match net.gethostbyname 1 host with
      | none => ⟨[], none, .error logoFailed⟩
      | some ip =>
        if isPublicIp net.readIp ip then
          let head := urlopen net 2 ip (logoRequest "HEAD" ip host parsed)
          match head.2 with
          | none => ⟨head.1, none, .error logoFailed⟩
          | some response =>
            match checkHead response with
            | .error message => ⟨head.1, none, .error message⟩
            | .ok ext =>
              let get := urlopen net 3 ip (logoRequest "GET" ip host parsed)
              match get.2 with
              | none => ⟨head.1 ++ get.1, none, .error logoFailed⟩
              | some logo =>
                -- the file is opened before the body is read
                match logo.body with
                | none => ⟨head.1 ++ get.1, some (logoPath tld ext, []), .error logoFailed⟩
                | some bytes => ⟨head.1 ++ get.1, some (logoPath tld ext, bytes), .ok ext⟩
        else
          ⟨[], none, .error ("Error: Logo URL ".toList ++ host ++
            " resolves to private/reserved IP ".toList ++ ip)⟩

/-- How a set is listed. -/
structure SetListing where
  list : List Str → List Str
  perm : ∀ texts, (list texts).Perm texts.dedup

def surroundings (net : Network) (sets : SetListing) (tld : Str) : Surroundings where
  checkUrl url := (checkUrl net url).reached
  storeLogo url := (storeLogo net tld url).result
  listSet := sets.list
  listSet_perm := sets.perm

/-- The form passes all checks that need no network. -/
def formPasses (sets : SetListing) (data : Data) : Bool :=
  (main ⟨fun _ => true, fun _ => .ok [], sets.list, sets.perm⟩ data).isOk

def LogoRun.write (run : LogoRun) (logos : Str → Option Bytes) : Str → Option Bytes :=
  match run.file with
  | none => logos
  | some (path, bytes) => Function.update logos path (some bytes)

structure BotRun where
  contacts : List Str
  logos : Str → Option Bytes
  result : Except Str BotConfig

/-- The seed domain is checked when the form has passed, and the logo after that. -/
def runMain (net : Network) (sets : SetListing) (data : Data) (logos : Str → Option Bytes) :
    BotRun :=
  let result := main (surroundings net sets (normalTld data)) data
  let seed := checkUrl net (textOf data .seed)
  if formPasses sets data then
    match seed.reached, given data .logoUrl with
    | true, some url =>
      let logo := storeLogo net (normalTld data) (strip url)
      ⟨seed.contacts ++ logo.contacts, logo.write logos, result⟩
    | _, _ => ⟨seed.contacts, logos, result⟩
  else ⟨[], logos, result⟩

variable {net : Network} {sets : SetListing} {data : Data} {logos : Str → Option Bytes}

theorem formPasses_iff : formPasses sets data = true ↔ FormChecks data := by
  rw [formPasses, main_isOk_iff]
  exact and_iff_left ⟨rfl, fun _ _ => rfl⟩

theorem runMain_result :
    (runMain net sets data logos).result = main (surroundings net sets (normalTld data)) data := by
  unfold runMain
  dsimp only
  split
  · split <;> rfl
  · rfl

/-- The stages of a run are those of the script: a form is accepted when it passes, the seed
domain is reached and a logo, if there is one, is stored. -/
theorem runMain_accepts_iff :
    (runMain net sets data logos).result.isOk = true ↔
      formPasses sets data = true ∧ (checkUrl net (textOf data .seed)).reached = true ∧
        ∀ url, given data .logoUrl = some url →
          (storeLogo net (normalTld data) (strip url)).result.isOk = true := by
  rw [runMain_result, main_isOk_iff, formPasses_iff]
  rfl

/-- The host of a URL resolves to a public address. -/
structure Resolves (net : Network) (n : ℕ) (url : Str) (parsed : ParsedUrl) (host ip : Str) :
    Prop where
  parsed_eq : net.urlparse url = some parsed
  host_eq : parsed.hostname.filter (· ≠ []) = some host
  ip_eq : net.gethostbyname n host = some ip
  is_public : isPublicIp net.readIp ip = true

/-- The redirects that are followed lead to hosts with public addresses. -/
def Reply.LeadsToPublic (readIp : Str → Option IpAddress) (visited : List Str) : Reply → Prop
  | .failed => True
  | .answered _ => True
  | .redirected url addresses reply =>
    follows visited url = true →
      (∀ ip ∈ addresses, isPublicIp readIp ip = true) ∧ reply.LeadsToPublic readIp (url :: visited)

theorem follow_public_iff (readIp : Str → Option IpAddress) (visited : List Str) (reply : Reply) :
    (∀ ip ∈ (reply.follow visited).1, isPublicIp readIp ip = true) ↔
      reply.LeadsToPublic readIp visited := by
  induction reply generalizing visited with
  | failed => simp [Reply.follow, Reply.LeadsToPublic]
  | answered response => simp [Reply.follow, Reply.LeadsToPublic]
  | redirected url addresses reply ih =>
    unfold Reply.follow Reply.LeadsToPublic
    split
    · rename_i hfollows
      rw [← ih]
      simp only [hfollows, List.mem_append, true_implies]
      constructor
      · exact fun h => ⟨fun ip hip => h ip (Or.inl hip), fun ip hip => h ip (Or.inr hip)⟩
      · rintro ⟨hnow, hlater⟩ ip (hip | hip)
        · exact hnow ip hip
        · exact hlater ip hip
    · rename_i hfollows
      simp [hfollows]

/-- The seed domain's servers redirect to public addresses only. -/
structure SeedRedirects (net : Network) (url : Str) : Prop where
  http : ∀ parsed host ip, Resolves net 0 (withScheme url) parsed host ip →
    (net.reply 0 (seedRequest "http" ip host parsed)).LeadsToPublic net.readIp []
  https : ∀ parsed host ip, Resolves net 0 (withScheme url) parsed host ip →
    (urlopen net 0 ip (seedRequest "http" ip host parsed)).2 = none →
      (net.reply 1 (seedRequest "https" ip host parsed)).LeadsToPublic net.readIp []

/-- The extension of the file, if the answer to the HEAD request passes the checks. -/
def headPasses (response : Option Response) : Option Str :=
  response.bind fun response => (checkHead response).toOption

/-- The logo's servers redirect to public addresses only. -/
structure LogoRedirects (net : Network) (url : Str) : Prop where
  head : ∀ parsed host ip, Resolves net 1 url parsed host ip →
    (net.reply 2 (logoRequest "HEAD" ip host parsed)).LeadsToPublic net.readIp []
  get : ∀ parsed host ip, Resolves net 1 url parsed host ip →
    ∀ ext, headPasses (urlopen net 2 ip (logoRequest "HEAD" ip host parsed)).2 = some ext →
      (net.reply 3 (logoRequest "GET" ip host parsed)).LeadsToPublic net.readIp []

/-- The seed domain has a public address, where one of the two requests is answered. -/
def SeedAnswers (net : Network) (url : Str) : Prop :=
  ∃ parsed host ip, Resolves net 0 (withScheme url) parsed host ip ∧
    ((urlopen net 0 ip (seedRequest "http" ip host parsed)).2.isSome = true ∨
      (urlopen net 1 ip (seedRequest "https" ip host parsed)).2.isSome = true)

variable {n : ℕ} {url tld host ip : Str} {parsed : ParsedUrl}

theorem Resolves.unique {parsed' : ParsedUrl} {host' ip' : Str}
    (h : Resolves net n url parsed host ip) (h' : Resolves net n url parsed' host' ip') :
    parsed' = parsed ∧ host' = host ∧ ip' = ip := by
  obtain rfl : parsed' = parsed := Option.some.inj (h'.parsed_eq.symm.trans h.parsed_eq)
  obtain rfl : host' = host := Option.some.inj (h'.host_eq.symm.trans h.host_eq)
  exact ⟨rfl, rfl, Option.some.inj (h'.ip_eq.symm.trans h.ip_eq)⟩

theorem Resolves.forall_iff {P : ParsedUrl → Str → Str → Prop}
    (h : Resolves net n url parsed host ip) :
    (∀ parsed host ip, Resolves net n url parsed host ip → P parsed host ip) ↔
      P parsed host ip := by
  refine ⟨fun hall => hall parsed host ip h, fun hone parsed' host' ip' h' => ?_⟩
  obtain ⟨rfl, rfl, rfl⟩ := h.unique h'
  exact hone

/-- Nothing is sent to a host that does not resolve to a public address. -/
theorem checkUrl_of_not_resolves
    (h : ¬ ∃ parsed host ip, Resolves net 0 (withScheme url) parsed host ip) :
    checkUrl net url = ⟨[], false⟩ := by
  unfold checkUrl
  split
  · rfl
  rename_i parsed hparsed
  split
  · rfl
  rename_i host hhost
  split
  · rfl
  rename_i ip hip
  exact if_neg fun hpublic => h ⟨parsed, host, ip, hparsed, hhost, hip, hpublic⟩

theorem checkUrl_of_resolves (h : Resolves net 0 (withScheme url) parsed host ip) :
    (checkUrl net url).contacts =
        (urlopen net 0 ip (seedRequest "http" ip host parsed)).1 ++
          (if (urlopen net 0 ip (seedRequest "http" ip host parsed)).2 = none then
            (urlopen net 1 ip (seedRequest "https" ip host parsed)).1
          else []) ∧
      (checkUrl net url).reached =
        ((urlopen net 0 ip (seedRequest "http" ip host parsed)).2.isSome ||
          (urlopen net 1 ip (seedRequest "https" ip host parsed)).2.isSome) := by
  simp only [checkUrl, h.parsed_eq, h.host_eq, h.ip_eq, if_pos h.is_public]
  cases (urlopen net 0 ip (seedRequest "http" ip host parsed)).2 <;> simp

theorem checkUrl_reached_iff : (checkUrl net url).reached = true ↔ SeedAnswers net url := by
  by_cases hresolves : ∃ parsed host ip, Resolves net 0 (withScheme url) parsed host ip
  · obtain ⟨parsed, host, ip, h⟩ := hresolves
    rw [(checkUrl_of_resolves h).2, Bool.or_eq_true]
    constructor
    · exact fun hanswer => ⟨parsed, host, ip, h, hanswer⟩
    · rintro ⟨parsed', host', ip', h', hanswer⟩
      obtain ⟨rfl, rfl, rfl⟩ := h.unique h'
      exact hanswer
  · rw [checkUrl_of_not_resolves hresolves]
    refine iff_of_false Bool.false_ne_true ?_
    rintro ⟨parsed, host, ip, h, -⟩
    exact hresolves ⟨parsed, host, ip, h⟩

theorem storeLogo_of_not_resolves (h : ¬ ∃ parsed host ip, Resolves net 1 url parsed host ip) :
    (storeLogo net tld url).contacts = [] ∧ (storeLogo net tld url).file = none := by
  unfold storeLogo
  split
  · exact ⟨rfl, rfl⟩
  rename_i parsed hparsed
  split
  · exact ⟨rfl, rfl⟩
  rename_i host hhost
  split
  · exact ⟨rfl, rfl⟩
  rename_i ip hip
  rw [if_neg fun hpublic => h ⟨parsed, host, ip, hparsed, hhost, hip, hpublic⟩]
  exact ⟨rfl, rfl⟩

theorem storeLogo_of_resolves (h : Resolves net 1 url parsed host ip) :
    (storeLogo net tld url).contacts =
        (urlopen net 2 ip (logoRequest "HEAD" ip host parsed)).1 ++
          (match headPasses (urlopen net 2 ip (logoRequest "HEAD" ip host parsed)).2 with
          | some _ => (urlopen net 3 ip (logoRequest "GET" ip host parsed)).1
          | none => []) ∧
      (storeLogo net tld url).file =
        (headPasses (urlopen net 2 ip (logoRequest "HEAD" ip host parsed)).2).bind fun ext =>
          (urlopen net 3 ip (logoRequest "GET" ip host parsed)).2.map fun logo =>
            (logoPath tld ext, logo.body.getD []) := by
  simp only [storeLogo, h.parsed_eq, h.host_eq, h.ip_eq, if_pos h.is_public]
  cases (urlopen net 2 ip (logoRequest "HEAD" ip host parsed)).2 with
  | none => simp [headPasses]
  | some response =>
    cases hhead : checkHead response with
    | error message => simp [headPasses, hhead, Except.toOption]
    | ok ext =>
      cases hget : (urlopen net 3 ip (logoRequest "GET" ip host parsed)).2 with
      | none => simp [headPasses, hhead, Except.toOption]
      | some logo => cases hbody : logo.body <;> simp [headPasses, hhead, Except.toOption, hbody]

theorem urlopen_public_iff (req : Request) (hip : isPublicIp net.readIp ip = true) :
    (∀ a ∈ (urlopen net n ip req).1, isPublicIp net.readIp a = true) ↔
      (net.reply n req).LeadsToPublic net.readIp [] := by
  rw [← follow_public_iff]
  simp [urlopen, hip]

theorem checkUrl_public_iff (net : Network) (url : Str) :
    (∀ a ∈ (checkUrl net url).contacts, isPublicIp net.readIp a = true) ↔
      SeedRedirects net url := by
  by_cases hresolves : ∃ parsed host ip, Resolves net 0 (withScheme url) parsed host ip
  · obtain ⟨parsed, host, ip, h⟩ := hresolves
    have hredirects : SeedRedirects net url ↔
        (net.reply 0 (seedRequest "http" ip host parsed)).LeadsToPublic net.readIp [] ∧
          ((urlopen net 0 ip (seedRequest "http" ip host parsed)).2 = none →
            (net.reply 1 (seedRequest "https" ip host parsed)).LeadsToPublic net.readIp []) :=
      ⟨fun ⟨hhttp, hhttps⟩ => ⟨h.forall_iff.mp hhttp, h.forall_iff.mp hhttps⟩,
        fun ⟨hhttp, hhttps⟩ => ⟨h.forall_iff.mpr hhttp, h.forall_iff.mpr hhttps⟩⟩
    rw [hredirects, (checkUrl_of_resolves h).1]
    simp only [List.mem_append, or_imp, forall_and, urlopen_public_iff _ h.is_public]
    refine and_congr_right fun _ => ?_
    split
    · rename_i hfailed
      rw [urlopen_public_iff _ h.is_public]
      exact ⟨fun hpublic _ => hpublic, fun hpublic => hpublic hfailed⟩
    · rename_i hanswered
      exact iff_of_true (by simp) fun hfailed => absurd hfailed hanswered
  · rw [checkUrl_of_not_resolves hresolves]
    refine iff_of_true (by simp) ⟨?_, ?_⟩
    · exact fun parsed host ip h => absurd ⟨parsed, host, ip, h⟩ hresolves
    · exact fun parsed host ip h => absurd ⟨parsed, host, ip, h⟩ hresolves

theorem storeLogo_public_iff (net : Network) (tld url : Str) :
    (∀ a ∈ (storeLogo net tld url).contacts, isPublicIp net.readIp a = true) ↔
      LogoRedirects net url := by
  by_cases hresolves : ∃ parsed host ip, Resolves net 1 url parsed host ip
  · obtain ⟨parsed, host, ip, h⟩ := hresolves
    have hredirects : LogoRedirects net url ↔
        (net.reply 2 (logoRequest "HEAD" ip host parsed)).LeadsToPublic net.readIp [] ∧
          ∀ ext, headPasses (urlopen net 2 ip (logoRequest "HEAD" ip host parsed)).2 = some ext →
            (net.reply 3 (logoRequest "GET" ip host parsed)).LeadsToPublic net.readIp [] :=
      ⟨fun ⟨hhead, hget⟩ => ⟨h.forall_iff.mp hhead, h.forall_iff.mp hget⟩,
        fun ⟨hhead, hget⟩ => ⟨h.forall_iff.mpr hhead, h.forall_iff.mpr hget⟩⟩
    rw [hredirects, (storeLogo_of_resolves h).1]
    simp only [List.mem_append, or_imp, forall_and, urlopen_public_iff _ h.is_public]
    refine and_congr_right fun _ => ?_
    cases headPasses (urlopen net 2 ip (logoRequest "HEAD" ip host parsed)).2 with
    | none => simp
    | some ext => simp [urlopen_public_iff _ h.is_public]
  · rw [(storeLogo_of_not_resolves hresolves).1]
    refine iff_of_true (by simp) ⟨?_, ?_⟩
    · exact fun parsed host ip h => absurd ⟨parsed, host, ip, h⟩ hresolves
    · exact fun parsed host ip h => absurd ⟨parsed, host, ip, h⟩ hresolves

/-- The guard covers every address that the bot contacts by itself. All contacts of a run are
public exactly when the redirects followed in it lead to public addresses as well. -/
theorem contacts_public_iff (net : Network) (sets : SetListing) (data : Data)
    (logos : Str → Option Bytes) :
    (∀ ip ∈ (runMain net sets data logos).contacts, isPublicIp net.readIp ip = true) ↔
      (FormChecks data →
        SeedRedirects net (textOf data .seed) ∧
          (SeedAnswers net (textOf data .seed) →
            ∀ url, given data .logoUrl = some url → LogoRedirects net (strip url))) := by
  rw [← checkUrl_public_iff, ← checkUrl_reached_iff, ← @formPasses_iff sets data]
  cases hform : formPasses sets data with
  | false => simp [runMain, hform]
  | true =>
    cases hreached : (checkUrl net (textOf data .seed)).reached with
    | false => simp [runMain, hform, hreached]
    | true =>
      cases hlogo : given data .logoUrl with
      | none => simp [runMain, hform, hreached, hlogo]
      | some url =>
        have hstore := storeLogo_public_iff net (normalTld data) (strip url)
        simp [runMain, hform, hreached, hlogo, or_imp, forall_and, ← hstore]

def logoForm : Data := fun key =>
  if key = .logoUrl then some "https://fork.example.org/logo.png"
  else sampleForm "fork" "fork-net" "127.0.0.2" "8080" sampleNodes key

def sampleSets : SetListing := ⟨quietSurroundings.listSet, quietSurroundings.listSet_perm⟩

def metadataService : Str := "169.254.169.254"

/-- Every name resolves to one public address, and the given replies are met there. -/
def networkOf (reply : ℕ → Reply) : Network where
  urlparse url :=
    some ⟨url.takeWhile (· ≠ ':'), some "fork.example.org", if "logo.png".toList <:+ url then
      "/logo.png".toList else [], []⟩
  readIp text :=
    if text = "93.184.216.34".toList then some (.v4 (ipv4 93 184 216 34))
    else if text = metadataService then some (.v4 (ipv4 169 254 169 254))
    else none
  gethostbyname _ _ := some "93.184.216.34"
  reply n _ := reply n

/-- The seed domain redirects to an address of the local network. -/
def redirectingSeed : Network := networkOf fun _ =>
  .redirected "http://169.254.169.254/latest/meta-data/" [metadataService] .failed

theorem redirect_contacts_private :
    ¬ ∀ ip ∈ (runMain redirectingSeed sampleSets logoForm fun _ => none).contacts,
      isPublicIp redirectingSeed.readIp ip = true := by
  have hcontact : metadataService ∈
      (runMain redirectingSeed sampleSets logoForm fun _ => none).contacts := by
    decide +kernel
  have hprivate : ¬ isPublicIp redirectingSeed.readIp metadataService = true := by decide +kernel
  exact fun h => hprivate (h _ hcontact)

def Limited (logos : Str → Option Bytes) : Prop :=
  ∀ path bytes, logos path = some bytes → bytes.length ≤ 50000

/-- If the logo gets as far as being downloaded, its download is within the limit. -/
def DownloadLimited (net : Network) (url : Str) : Prop :=
  ∀ parsed host ip, Resolves net 1 url parsed host ip →
    ∀ ext logo bytes,
      headPasses (urlopen net 2 ip (logoRequest "HEAD" ip host parsed)).2 = some ext →
        (urlopen net 3 ip (logoRequest "GET" ip host parsed)).2 = some logo →
          logo.body = some bytes → bytes.length ≤ 50000

theorem storeLogo_limited_iff (net : Network) (tld url : Str) :
    (∀ path bytes, (storeLogo net tld url).file = some (path, bytes) → bytes.length ≤ 50000) ↔
      DownloadLimited net url := by
  by_cases hresolves : ∃ parsed host ip, Resolves net 1 url parsed host ip
  · obtain ⟨parsed, host, ip, h⟩ := hresolves
    unfold DownloadLimited
    rw [h.forall_iff, (storeLogo_of_resolves h).2]
    constructor
    · intro hlimited ext logo bytes hpasses hget hbody
      refine hlimited (logoPath tld ext) bytes ?_
      rw [hpasses, Option.bind_some, hget, Option.map_some, hbody, Option.getD_some]
    · intro hlimited path bytes hfile
      obtain ⟨ext, hpasses, hfile⟩ := Option.bind_eq_some_iff.mp hfile
      obtain ⟨logo, hget, hfile⟩ := Option.map_eq_some_iff.mp hfile
      obtain ⟨-, rfl⟩ := Prod.mk.inj hfile
      -- an empty file is left when the body breaks off
      cases hbody : logo.body with
      | none => simp
      | some bytes => exact hlimited ext logo bytes hpasses hget hbody
  · rw [(storeLogo_of_not_resolves hresolves).2]
    refine iff_of_true (fun path bytes hnone => by cases hnone) ?_
    exact fun parsed host ip h => absurd ⟨parsed, host, ip, h⟩ hresolves

theorem write_limited_iff (run : LogoRun) :
    (∀ logos, Limited logos → Limited (run.write logos)) ↔
      ∀ path bytes, run.file = some (path, bytes) → bytes.length ≤ 50000 := by
  constructor
  · intro h path bytes hfile
    refine h (fun _ => none) (fun _ _ hnone => by cases hnone) path bytes ?_
    simp [LogoRun.write, hfile]
  · intro h logos hlogos
    unfold LogoRun.write
    cases hfile : run.file with
    | none => exact hlogos
    | some written =>
      intro path bytes hpath
      by_cases heq : path = written.1
      · subst heq
        simp only [Function.update_self, Option.some.injEq] at hpath
        exact hpath ▸ h _ _ hfile
      · exact hlogos path bytes (by simpa [Function.update_of_ne heq] using hpath)

/-- The size limit holds for the logos that runs of the bot leave exactly when it holds for
the downloads, which are not looked at. -/
theorem logos_limited_iff (net : Network) (sets : SetListing) (data : Data) :
    (∀ logos, Limited logos → Limited (runMain net sets data logos).logos) ↔
      (FormChecks data → SeedAnswers net (textOf data .seed) →
        ∀ url, given data .logoUrl = some url → DownloadLimited net (strip url)) := by
  rw [← checkUrl_reached_iff, ← @formPasses_iff sets data]
  cases hform : formPasses sets data with
  | false => simp [runMain, hform]
  | true =>
    cases hreached : (checkUrl net (textOf data .seed)).reached with
    | false => simp [runMain, hform, hreached]
    | true =>
      cases hlogo : given data .logoUrl with
      | none => simp [runMain, hform, hreached, hlogo]
      | some url =>
        have hstore := storeLogo_limited_iff net (normalTld data) (strip url)
        have hwrite := write_limited_iff (storeLogo net (normalTld data) (strip url))
        simpa [runMain, hform, hreached, hlogo] using hwrite.trans hstore

/-- The HEAD request is answered without a length, and the file is one byte too long. -/
def oversizedLogo : Network := networkOf fun n =>
  .answered ⟨none, some "image/png", if n = 3 then some (List.replicate 50001 0) else none⟩

theorem oversized_logo_stored :
    Limited (fun _ => none) ∧
      ¬ Limited (runMain oversizedLogo sampleSets logoForm fun _ => none).logos := by
  have hempty : Limited fun _ => none := fun _ _ h => by cases h
  refine ⟨hempty, fun h => ?_⟩
  have hform : formPasses sampleSets logoForm = true := by decide +kernel
  have hreached : (checkUrl oversizedLogo (textOf logoForm .seed)).reached = true := by
    decide +kernel
  have hresolves : Resolves oversizedLogo 1 (strip "https://fork.example.org/logo.png")
      ⟨"https", some "fork.example.org", "/logo.png", []⟩ "fork.example.org" "93.184.216.34" :=
    ⟨by rfl, by decide, rfl, by decide +kernel⟩
  have hfile : (storeLogo oversizedLogo (normalTld logoForm)
      (strip "https://fork.example.org/logo.png")).file =
        some (logoPath (normalTld logoForm) ".png", List.replicate 50001 0) := by
    rw [(storeLogo_of_resolves hresolves).2]
    rfl
  have hstored : (runMain oversizedLogo sampleSets logoForm fun _ => none).logos
      (logoPath (normalTld logoForm) ".png") = some (List.replicate 50001 0) := by
    have hlogo : given logoForm .logoUrl = some "https://fork.example.org/logo.png".toList := rfl
    simp only [runMain, hform, hreached, hlogo, if_true, LogoRun.write, hfile,
      Function.update_self]
  have hlength := h _ _ hstored
  rw [List.length_replicate] at hlength
  omega

end KineticAtlas.BotNetwork
