import FileManager.World
import FileManager.Json

/-! Webhooks: the admission of a callback URL against the allow-list, and the delivery
loop of the worker with every HTTP request it causes, redirects included. -/

namespace FileManager.Webhooks
open World PyString

/-- What the URL functions take from the standard library beyond splitting: `str.lower`,
and the checks of `urlsplit` on bracketed and non-ASCII network locations. -/
structure UrlLibrary where
  lower : String → String
  netlocValid : String → Bool

variable (lib : UrlLibrary)

structure SplitUrl where
  scheme : String
  netloc : String
deriving DecidableEq

def isSchemeChar (c : Char) : Bool := c.isAlphanum || c = '+' || c = '-' || c = '.'

/-- `url.lstrip` of control characters and blanks, then tabs and line ends removed. -/
def cleanUrl (url : String) : List Char :=
  (url.toList.dropWhile fun c => c.toNat ≤ 32).filter fun c => c ≠ '\t' ∧ c ≠ '\r' ∧ c ≠ '\n'

def splitScheme (url : List Char) : String × List Char :=
  match splitFirst ':' url with
  | some (c :: scheme, rest) =>
    if c.isAlpha ∧ (c :: scheme).all isSchemeChar then
      (lib.lower (String.ofList (c :: scheme)), rest)
    else ("", url)
  | _ => ("", url)

/-- `none` is a ValueError. -/
def urlparse (url : String) : Option SplitUrl :=
  let (scheme, rest) := splitScheme lib (cleanUrl url)
  match rest with
  | '/' :: '/' :: rest =>
    let netloc := rest.takeWhile fun c => c ≠ '/' ∧ c ≠ '?' ∧ c ≠ '#'
    if netloc.contains '[' ≠ netloc.contains ']' then none
    else if ¬ lib.netlocValid (String.ofList netloc) then none
    else some ⟨scheme, String.ofList netloc⟩
  | _ => some ⟨scheme, ""⟩

def hostinfo (netloc : String) : List Char :=
  let info := ((splitLast '@' netloc.toList).map (·.2)).getD netloc.toList
  match splitFirst '[' info with
  | some (_, bracketed) => ((splitFirst ']' bracketed).map (·.1)).getD bracketed
  | none => ((splitFirst ':' info).map (·.1)).getD info

/-- The host of a network location; the zone of a scoped address keeps its case. -/
def SplitUrl.hostname (parsed : SplitUrl) : Option String :=
  match hostinfo parsed.netloc with
  | [] => none
  | host =>
    match splitFirst '%' host with
    | some (name, zone) => some (lib.lower (String.ofList name) ++ "%" ++ String.ofList zone)
    | none => some (lib.lower (String.ofList host))

/-- A number of seconds as a Python `float` holds it. -/
inductive Seconds where
  | finite (q : Rat)
  | infinite (negative : Bool)
  | nan
deriving DecidableEq

namespace Seconds

/-- From here on a product is infinite. -/
def overflow : Rat := 2 ^ 1024

/-- The product with `2 ^ k`, for `k` below 1024: it is exact unless it overflows. -/
def timesPowTwo (k : Nat) : Seconds → Seconds
  | finite q =>
    if q * 2 ^ k ≤ -overflow then infinite true
    else if overflow ≤ q * 2 ^ k then infinite false
    else finite (q * 2 ^ k)
  | infinite negative => infinite negative
  | nan => nan

def lt : Seconds → Seconds → Bool
  | finite p, finite q => p < q
  | finite _, infinite negative => !negative
  | infinite negative, finite _ => negative
  | infinite p, infinite q => p && !q
  | _, _ => false

/-- The builtin `min`, which keeps its first argument unless the second is smaller. -/
def min (x y : Seconds) : Seconds := if lt y x then y else x

def AtMost (bound : Rat) : Seconds → Prop
  | finite q => q ≤ bound
  | infinite negative => negative = true
  | nan => False

@[simp] theorem timesPowTwo_eq_nan (k : Nat) (x : Seconds) : timesPowTwo k x = nan ↔ x = nan := by
  cases x with
  | finite q =>
    simp only [timesPowTwo, reduceCtorEq, iff_false]
    split
    · simp
    · split <;> simp
  | infinite negative => simp [timesPowTwo]
  | nan => simp [timesPowTwo]

theorem min_finite_eq_nan (bound : Rat) (x : Seconds) : min x (finite bound) = nan ↔ x = nan := by
  unfold min
  split
  · rename_i hlt
    have hx : x ≠ nan := by
      intro h
      simp [h, lt] at hlt
    simp [hx]
  · rfl

theorem min_atMost {bound : Rat} {x : Seconds} (hx : x ≠ nan) :
    AtMost bound (min x (finite bound)) := by
  unfold min
  split
  · exact Rat.le_refl
  · rename_i hlt
    cases x with
    | finite q => simpa [lt, AtMost, Rat.not_lt] using hlt
    | infinite negative => simpa [lt, AtMost] using hlt
    | nan => exact absurd rfl hx

end Seconds

structure WebhookSettings where
  signingSecret : String
  allowedHosts : String
  allowInsecureHttp : Bool
  allowPrivateIps : Bool
  maxAttempts : Int
  retryBackoffSeconds : Seconds

variable (settings : WebhookSettings)

def parsedWebhookAllowedHosts : List String :=
  ((settings.allowedHosts.toList.splitOn ',').filter fun h => strip (String.ofList h) ≠ "").map
    fun h => lib.lower (strip (String.ofList h))

def webhooksEnabled : Bool :=
  settings.signingSecret ≠ "" && !(parsedWebhookAllowedHosts lib settings).isEmpty

/-- The addresses a host resolves to, and which of them are private, loopback and so on. -/
structure Resolver where
  getaddrinfo : String → Option (List String)
  disallowed : String → Bool

variable (resolver : Resolver)

def rejectIfPrivate (host : String) : Except Exn Unit :=
  match resolver.getaddrinfo host with
  | none => .error (.webhookValidation "callback_url host could not be resolved")
  | some addresses =>
    if addresses.any resolver.disallowed then
      .error (.webhookValidation "callback_url host resolves to a disallowed address")
    else .ok ()

def allowedSchemes : List String :=
  if settings.allowInsecureHttp then ["https", "http"] else ["https"]

def validateCallbackUrl (url : String) : Except Exn String :=
  if ¬ webhooksEnabled lib settings then
    .error (.webhookValidation "Webhooks are not enabled on this server")
  else
    match urlparse lib url with
    | none => .error .other
    | some parsed =>
      if lib.lower parsed.scheme ∉ allowedSchemes settings then
        .error (.webhookValidation "callback_url must use https")
      else
        match parsed.hostname lib with
        | none => .error (.webhookValidation "callback_url is missing a host")
        | some host =>
          if lib.lower host ∉ parsedWebhookAllowedHosts lib settings then
            .error (.webhookValidation "callback_url host is not allowed")
          else if settings.allowPrivateIps then .ok url
          else
            match rejectIfPrivate resolver host with
            | .error e => .error e
            | .ok () => .ok url

/-- `location` is what the `Location` header says, or the `URI` header where that is missing. -/
structure Response where
  status : Nat
  location : Option String
deriving DecidableEq

/-- The HTTP client: the scheme and host it sends a request for a URL to, the URL that a
location seen at another names (`none` where it refuses it), and `session.post`, which gives
the URLs requested and the last answer or the text of the error. `receive hop` is what the
receiver of the request after `hop` redirects does. -/
structure HttpClient where
  address : String → String × String
  redirectUrl : String → String → Option String
  post : (receive : Nat → String → Except String Response) → String →
    List String × Except String Response

variable (client : HttpClient)

/-- What the loop reads from the clock, and `hmac` and `json` beneath it. -/
structure Signer where
  timestamp : Nat → Nat
  isoNow : String
  hmacSha256Hex : String → String → String
  dumps : Json → String

variable (signer : Signer)

def sign (secret timestamp body : String) : String :=
  "sha256=" ++ signer.hmacSha256Hex secret (timestamp ++ "." ++ body)

/-- `none` is the OverflowError of a float times an integer of 2^1024 or more. -/
def backoffSeconds (attempt : Nat) : Option Seconds :=
  if 1024 ≤ attempt - 1 then none
  else some ((settings.retryBackoffSeconds.timesPowTwo (attempt - 1)).min (.finite 30))

/-- The `asyncio.sleep` after an attempt, which raises a ValueError for NaN; `none` is either
exception. -/
def sleepAfter (attempt : Nat) : Option Seconds :=
  match backoffSeconds settings attempt with
  | some .nan => none
  | wait => wait

structure Post where
  url : String
  body : String
  deliveryId : String
  event : String
  timestamp : String
  signature : String
deriving DecidableEq

/-- A delivery cycle: the posts made, the URLs requested by them, the waits between them,
and the result, which is missing where an exception ended the cycle. -/
structure Delivery where
  posts : List Post
  requests : List String
  waits : List Seconds
  result : Option WebhookDelivery

/-- What the receivers do: at which attempt, after how many redirects, at which URL. -/
abbrev Receivers := Nat → Nat → String → Except String Response

def isDelivered : Except String Response → Bool
  | .ok response => 200 ≤ response.status && response.status < 300
  | .error _ => false

def failureReason : Except String Response → String
  | .ok response => "HTTP " ++ toString response.status
  | .error e => e

/-- The attempts from `attempt` on, of which `remaining` are left. -/
def deliverAttempts (receivers : Receivers) (post : Nat → Post) (url : String) :
    (remaining attempt : Nat) → (lastError : String) → Delivery
  | 0, attempt, lastError => ⟨[], [], [], some ⟨false, attempt - 1, some lastError⟩⟩
  | remaining + 1, attempt, _ =>
    let (urls, answer) := client.post (receivers attempt) url
    if isDelivered answer then ⟨[post attempt], urls, [], some ⟨true, attempt, none⟩⟩
    else if remaining = 0 then
      ⟨[post attempt], urls, [], some ⟨false, attempt, some (failureReason answer)⟩⟩
    else
      match sleepAfter settings attempt with
      | none => ⟨[post attempt], urls, [], none⟩
      | some wait =>
        let rest := deliverAttempts receivers post url remaining (attempt + 1)
          (failureReason answer)
        ⟨post attempt :: rest.posts, urls ++ rest.requests, wait :: rest.waits, rest.result⟩

def deliverWebhook (receivers : Receivers) (url event : String) (data : Json)
    (deliveryId : String) : Delivery :=
  let body := signer.dumps (.dict [("id", .str deliveryId), ("event", .str event),
    ("created_at", .str signer.isoNow), ("data", data)])
  let post attempt :=
    let timestamp := toString (signer.timestamp attempt)
    ⟨url, body, deliveryId, event, timestamp, sign signer settings.signingSecret timestamp body⟩
  deliverAttempts settings client receivers post url settings.maxAttempts.toNat 1
    "no attempt made"

def Permits (address : String × String) : Prop :=
  address.1 ∈ allowedSchemes settings ∧ address.2 ∈ parsedWebhookAllowedHosts lib settings

def redirectStatuses : List Nat := [301, 302, 303, 307, 308]

/-- The default `max_redirects` of a request raises at the tenth redirect. -/
def followedRedirects : Nat := 9

/-- The URL that an answer at `url` redirects to. -/
def redirectOf (url : String) : Except String Response → Option String
  | .ok ⟨status, some location⟩ =>
    if status ∈ redirectStatuses then client.redirectUrl url location else none
  | _ => none

/-- The URLs that redirects lead through from `url` on, `left` of them at most. -/
def redirectChain (receive : Nat → String → Except String Response) :
    (left hop : Nat) → String → List String
  | 0, _, url => [url]
  | left + 1, hop, url =>
    match redirectOf client url (receive hop url) with
    | none => [url]
    | some next => url :: redirectChain receive left (hop + 1) next

/-- The client sends a request for a URL to the scheme and host that `urlparse` reads, and
follows redirects as far as its default lets it. -/
structure HttpClient.Documented : Prop where
  address_eq : ∀ url parsed host, urlparse lib url = some parsed →
    parsed.hostname lib = some host →
      client.address url = (lib.lower parsed.scheme, lib.lower host)
  requests_eq : ∀ receive url,
    (client.post receive url).1 = redirectChain client receive followedRedirects 0 url

section Egress

theorem mem_redirectChain (receive : Nat → String → Except String Response) (left hop : Nat)
    (url : String) : url ∈ redirectChain client receive left hop url := by
  cases left with
  | zero => simp [redirectChain]
  | succ left =>
    unfold redirectChain
    split <;> simp

/-- No receiver redirects out of the allow-list, as far as redirects are followed. -/
def Contained (receive : Nat → String → Except String Response) : (left hop : Nat) → String → Prop
  | 0, _, _ => True
  | left + 1, hop, url => ∀ next, redirectOf client url (receive hop url) = some next →
      Permits lib settings (client.address next) ∧ Contained receive left (hop + 1) next

theorem redirectChain_permitted (receive : Nat → String → Except String Response)
    (left hop : Nat) (url : String) (hurl : Permits lib settings (client.address url)) :
    (∀ u ∈ redirectChain client receive left hop url,
      Permits lib settings (client.address u)) ↔
        Contained lib settings client receive left hop url := by
  induction left generalizing hop url with
  | zero => simpa [redirectChain, Contained] using hurl
  | succ left ih =>
    cases hnext : redirectOf client url (receive hop url) with
    | none => simpa [redirectChain, Contained, hnext] using hurl
    | some next =>
      have hfirst := mem_redirectChain client receive left (hop + 1) next
      simp only [redirectChain, hnext, List.mem_cons, forall_eq_or_imp, hurl, true_and, Contained,
        Option.some.injEq, forall_eq']
      constructor
      · intro h
        have hpermits := h next hfirst
        exact ⟨hpermits, (ih (hop + 1) next hpermits).mp h⟩
      · intro h
        exact (ih (hop + 1) next h.1).mpr h.2

theorem sleepAfter_eq_none (attempt : Nat) :
    sleepAfter settings attempt = none ↔
      1025 ≤ attempt ∨ settings.retryBackoffSeconds = .nan := by
  unfold sleepAfter backoffSeconds
  by_cases hlate : 1024 ≤ attempt - 1
  · have h : 1025 ≤ attempt := by omega
    simp [hlate, h]
  · have h : ¬ 1025 ≤ attempt := by omega
    have hnan := (Seconds.min_finite_eq_nan 30
      (settings.retryBackoffSeconds.timesPowTwo (attempt - 1))).trans
        (Seconds.timesPowTwo_eq_nan (attempt - 1) settings.retryBackoffSeconds)
    simp only [hlate, if_false, h, false_or, ← hnan]
    split
    · rename_i heq
      simpa using heq
    · rename_i hne
      simpa using hne

/-- What came of the post of each attempt. -/
def outcome (receivers : Receivers) (url : String) (attempt : Nat) : Except String Response :=
  (client.post (receivers attempt) url).2

/-- The loop reaches an attempt if no earlier one was delivered, and no wait before it
raised. -/
def Reached (receivers : Receivers) (url : String) (start attempt : Nat) : Prop :=
  start ≤ attempt ∧ ∀ earlier, start ≤ earlier → earlier < attempt →
    isDelivered (outcome client receivers url earlier) = false ∧
      sleepAfter settings earlier ≠ none

variable {settings client} in
theorem Reached.first {receivers : Receivers} {url : String} (start : Nat) :
    Reached settings client receivers url start start :=
  ⟨le_rfl, fun _ h h' => by omega⟩

variable {settings client} in
theorem Reached.eq_first {receivers : Receivers} {url : String} {start attempt : Nat}
    (h : Reached settings client receivers url start attempt)
    (hlast : isDelivered (outcome client receivers url start) = true ∨
      sleepAfter settings start = none) : attempt = start := by
  by_contra hne
  have hle := h.1
  have hpassed := h.2 start le_rfl (by omega)
  rcases hlast with hdelivered | hraised
  · exact absurd hdelivered (by simp [hpassed.1])
  · exact hpassed.2 hraised

variable {settings client} in
theorem reached_succ {receivers : Receivers} {url : String} {start attempt : Nat}
    (hundelivered : isDelivered (outcome client receivers url start) = false)
    (hslept : sleepAfter settings start ≠ none) (hne : attempt ≠ start) :
    Reached settings client receivers url start attempt ↔
      Reached settings client receivers url (start + 1) attempt := by
  unfold Reached
  constructor
  · intro ⟨hle, hearlier⟩
    exact ⟨by omega, fun earlier h h' => hearlier earlier (by omega) h'⟩
  · intro ⟨hle, hearlier⟩
    refine ⟨by omega, fun earlier h h' => ?_⟩
    by_cases heq : earlier = start
    · rw [heq]
      exact ⟨hundelivered, hslept⟩
    · exact hearlier earlier (by omega) h'

theorem mem_deliverAttempts_requests (receivers : Receivers) (post : Nat → Post)
    (url u : String) (remaining start : Nat) (lastError : String) :
    u ∈ (deliverAttempts settings client receivers post url remaining start lastError).requests ↔
      ∃ attempt, attempt < start + remaining ∧ Reached settings client receivers url start attempt ∧
        u ∈ (client.post (receivers attempt) url).1 := by
  induction remaining generalizing start lastError with
  | zero =>
    have hnone : ¬ ∃ attempt, attempt < start ∧ Reached settings client receivers url start attempt ∧
        u ∈ (client.post (receivers attempt) url).1 := by
      intro ⟨attempt, hlt, hreached, _⟩
      have hle := hreached.1
      omega
    simpa [deliverAttempts] using hnone
  | succ remaining ih =>
    have honly : (∀ attempt, attempt < start + (remaining + 1) →
        Reached settings client receivers url start attempt → attempt = start) →
        ((∃ attempt, attempt < start + (remaining + 1) ∧
          Reached settings client receivers url start attempt ∧
          u ∈ (client.post (receivers attempt) url).1) ↔
        u ∈ (client.post (receivers start) url).1) := by
      intro h
      constructor
      · intro ⟨attempt, hlt, hreached, hmem⟩
        rwa [h attempt hlt hreached] at hmem
      · intro hmem
        exact ⟨start, by omega, Reached.first start, hmem⟩
    unfold deliverAttempts
    simp only
    split
    · rename_i hdelivered
      exact (honly fun attempt _ hreached => hreached.eq_first (Or.inl hdelivered)).symm
    · rename_i hundelivered
      simp only [Bool.not_eq_true] at hundelivered
      split
      · rename_i hlast
        exact (honly fun attempt hlt hreached => by have := hreached.1; omega).symm
      · split
        · rename_i hraised
          exact (honly fun attempt _ hreached => hreached.eq_first (Or.inr hraised)).symm
        · rename_i wait hwait
          have hslept : sleepAfter settings start ≠ none := by simp [hwait]
          rw [List.mem_append, ih]
          constructor
          · rintro (hmem | ⟨attempt, hlt, hreached, hmem⟩)
            · exact ⟨start, by omega, Reached.first start, hmem⟩
            · have hle := hreached.1
              exact ⟨attempt, by omega,
                (reached_succ hundelivered hslept (by omega)).mpr hreached, hmem⟩
          · intro ⟨attempt, hlt, hreached, hmem⟩
            by_cases heq : attempt = start
            · exact Or.inl (heq ▸ hmem)
            · exact Or.inr ⟨attempt, by omega,
                (reached_succ hundelivered hslept heq).mp hreached, hmem⟩

variable {lib settings resolver} in
theorem validateCallbackUrl_ok {url answer : String}
    (h : validateCallbackUrl lib settings resolver url = .ok answer) :
    answer = url ∧ ∃ parsed host, urlparse lib url = some parsed ∧
      parsed.hostname lib = some host ∧
        Permits lib settings (lib.lower parsed.scheme, lib.lower host) := by
  unfold validateCallbackUrl at h
  split at h
  · simp at h
  · split at h
    · simp at h
    · rename_i parsed hparsed
      split at h
      · simp at h
      · rename_i hscheme
        simp only [not_not] at hscheme
        split at h
        · simp at h
        · rename_i host hhost
          split at h
          · simp at h
          · rename_i hallowed
            simp only [not_not] at hallowed
            have hpermits : ∃ parsed host, urlparse lib url = some parsed ∧
                parsed.hostname lib = some host ∧
                Permits lib settings (lib.lower parsed.scheme, lib.lower host) :=
              ⟨parsed, host, hparsed, hhost, hscheme, hallowed⟩
            split at h
            · simp only [Except.ok.injEq] at h
              exact ⟨h.symm, hpermits⟩
            · split at h
              · simp at h
              · simp only [Except.ok.injEq] at h
                exact ⟨h.symm, hpermits⟩

/-- Every request of a delivery goes to the allow-list exactly if no receiver of an attempt
that is made redirects out of it. -/
theorem requests_permitted_iff (receivers : Receivers) (url event : String) (data : Json)
    (deliveryId : String) (hclient : client.Documented lib)
    (hadmitted : validateCallbackUrl lib settings resolver url = .ok url) :
    (∀ u ∈ (deliverWebhook settings client signer receivers url event data deliveryId).requests,
      Permits lib settings (client.address u)) ↔
    ∀ attempt : Nat, (attempt : Int) ≤ settings.maxAttempts →
      Reached settings client receivers url 1 attempt →
        Contained lib settings client (receivers attempt) followedRedirects 0 url := by
  obtain ⟨_, parsed, host, hparsed, hhost, hpermits⟩ := validateCallbackUrl_ok hadmitted
  rw [← hclient.address_eq url parsed host hparsed hhost] at hpermits
  have hrequests : ∀ u,
      u ∈ (deliverWebhook settings client signer receivers url event data deliveryId).requests ↔
        ∃ attempt, attempt < 1 + settings.maxAttempts.toNat ∧
          Reached settings client receivers url 1 attempt ∧
            u ∈ (client.post (receivers attempt) url).1 := by
    intro u
    exact mem_deliverAttempts_requests settings client receivers _ url u _ 1 _
  have hpermitted : ∀ attempt, (∀ u ∈ (client.post (receivers attempt) url).1,
      Permits lib settings (client.address u)) ↔
        Contained lib settings client (receivers attempt) followedRedirects 0 url := by
    intro attempt
    rw [hclient.requests_eq]
    exact redirectChain_permitted lib settings client (receivers attempt) _ 0 url hpermits
  constructor
  · intro h attempt hmax hreached
    have hlt : attempt < 1 + settings.maxAttempts.toNat := by omega
    exact (hpermitted attempt).mp fun u hu => h u ((hrequests u).mpr ⟨attempt, hlt, hreached, hu⟩)
  · intro h u hu
    obtain ⟨attempt, hlt, hreached, hmem⟩ := (hrequests u).mp hu
    have hle := hreached.1
    exact (hpermitted attempt).mpr (h attempt (by omega) hreached) u hmem

end Egress

def asciiLibrary : UrlLibrary := ⟨lower, fun netloc => netloc.toList.all fun c => c.toNat < 128⟩

def hookSettings : WebhookSettings where
  signingSecret := "shh-secret"
  allowedHosts := "hooks.example.com"
  allowInsecureHttp := false
  allowPrivateIps := false
  maxAttempts := 4
  retryBackoffSeconds := .finite 1

def oneHost : Resolver := ⟨fun _ => some ["203.0.113.7"], fun _ => false⟩

/-- A post by a client that takes a location for a whole URL. -/
def followLocations (receive : Nat → String → Except String Response) :
    (left hop : Nat) → String → List String × Except String Response
  | 0, hop, url =>
    match receive hop url with
    | .ok response =>
      if response.status ∈ redirectStatuses then
        ([url], .error "TooManyRedirects: 0, message=''")
      else ([url], .ok response)
    | .error e => ([url], .error e)
  | left + 1, hop, url =>
    match receive hop url with
    | .ok ⟨status, some location⟩ =>
      if status ∈ redirectStatuses then
        let (urls, answer) := followLocations receive left (hop + 1) location
        (url :: urls, answer)
      else ([url], .ok ⟨status, some location⟩)
    | answer => ([url], answer)

def followingClient : HttpClient where
  address url :=
    match urlparse asciiLibrary url with
    | none => ("", "")
    | some parsed => (lower parsed.scheme, lower ((parsed.hostname asciiLibrary).getD ""))
  redirectUrl _ location := some location
  post receive url := followLocations receive followedRedirects 0 url

def plainSigner : Signer := ⟨fun _ => 1700000000, "2023-11-14T22:13:20+00:00", fun _ _ => "00",
  fun _ => "\x7b\x7d"⟩

def hookUrl : String := "https://hooks.example.com/done"

/-- The receiver at `hookUrl` redirects; every other one says 200. -/
def redirecting (location : String) : Receivers := fun _ _ url =>
  if url = hookUrl then .ok ⟨302, some location⟩ else .ok ⟨200, none⟩

def metadataUrl : String := "http://169.254.169.254/latest/meta-data/"

def movedUrl : String := "https://hooks.example.com/moved"

instance (address : String × String) : Decidable (Permits asciiLibrary hookSettings address) := by
  unfold Permits
  infer_instance

theorem hook_computed :
    validateCallbackUrl asciiLibrary hookSettings oneHost hookUrl = .ok hookUrl ∧
    metadataUrl ∈ (deliverWebhook hookSettings followingClient plainSigner
      (redirecting metadataUrl) hookUrl "video.completed" .null "d1").requests ∧
    ¬ Permits asciiLibrary hookSettings (followingClient.address metadataUrl) ∧
    Permits asciiLibrary hookSettings (followingClient.address movedUrl) := by
  decide +kernel

theorem followLocations_requests (receive : Nat → String → Except String Response)
    (left hop : Nat) (url : String) :
    (followLocations receive left hop url).1 =
      redirectChain followingClient receive left hop url := by
  induction left generalizing hop url with
  | zero =>
    unfold followLocations
    split
    · split <;> rfl
    · rfl
  | succ left ih =>
    unfold followLocations redirectChain
    split
    · rename_i status location hanswer
      by_cases hstatus : status ∈ redirectStatuses
      · simp [redirectOf, followingClient, hanswer, hstatus, ih]
      · simp [redirectOf, hanswer, hstatus]
    · rename_i hlast
      have hnext : redirectOf followingClient url (receive hop url) = none := by
        unfold redirectOf
        split
        · rename_i status location hanswer
          exact absurd hanswer (hlast status location)
        · rfl
      simp [hnext]

theorem followingClient_documented : followingClient.Documented asciiLibrary where
  address_eq := by
    intro url parsed host hparsed hhost
    simp only [followingClient, hparsed, hhost, Option.getD_some]
    rfl
  requests_eq := fun receive url => followLocations_requests receive _ 0 url

theorem metadata_service_requested :
    followingClient.Documented asciiLibrary ∧
    validateCallbackUrl asciiLibrary hookSettings oneHost hookUrl = .ok hookUrl ∧
    ∃ u ∈ (deliverWebhook hookSettings followingClient plainSigner (redirecting metadataUrl)
        hookUrl "video.completed" .null "d1").requests,
      ¬ Permits asciiLibrary hookSettings (followingClient.address u) := by
  obtain ⟨hadmitted, hrequested, hforbidden, _⟩ := hook_computed
  exact ⟨followingClient_documented, hadmitted, metadataUrl, hrequested, hforbidden⟩

theorem moved_hook_permitted :
    validateCallbackUrl asciiLibrary hookSettings oneHost hookUrl = .ok hookUrl ∧
    ∀ u ∈ (deliverWebhook hookSettings followingClient plainSigner (redirecting movedUrl)
        hookUrl "video.completed" .null "d1").requests,
      Permits asciiLibrary hookSettings (followingClient.address u) := by
  obtain ⟨hadmitted, _, _, hpermitted⟩ := hook_computed
  refine ⟨hadmitted, ?_⟩
  refine (requests_permitted_iff asciiLibrary hookSettings oneHost followingClient plainSigner _
    hookUrl "video.completed" .null "d1" followingClient_documented hadmitted).mpr ?_
  intro attempt _ _ next hnext
  have hmoved : next = movedUrl := by
    simpa [redirecting, redirectOf, redirectStatuses, followingClient] using hnext.symm
  subst hmoved
  refine ⟨hpermitted, ?_⟩
  intro next hnext
  have hdone : redirectOf followingClient movedUrl (redirecting movedUrl attempt 1 movedUrl) =
      none := by
    simp [redirecting, redirectOf, hookUrl, movedUrl]
  exact absurd hnext (by simp [hdone])

end FileManager.Webhooks
