import LlmProxy.Lib.PyStr

/-! # Confinement of a key to its paths

`allowed_paths_middleware` (`app/middleware/allowed_paths.py`) refuses a request whose key is not
allowed on the path. It takes the key from the headers itself, before the endpoint takes one for
`verify_api_key` (`app/auth/keys.py`), and the two prefer different headers.

> `serves_of_pass`, `invoked_le_one`: when the downstream handler is invoked, and how often;
> `confines_iff`: a request is confined to the paths of the key it is served as, and handled once,
> exactly when the middleware looks the same key up, its read succeeds and the handler raises
> nothing.
-/

namespace LlmProxy.Auth

/-! ## Paths -/

/-- One `p.replace("//", "/")`. -/
def halveSlashes : List Char → List Char
  | '/' :: '/' :: rest => '/' :: halveSlashes rest
  | c :: rest => c :: halveSlashes rest
  | [] => []

/-- `"//" in p`. -/
def hasDoubleSlash : List Char → Bool
  | '/' :: '/' :: _ => true
  | _ :: rest => hasDoubleSlash rest
  | [] => false

/-- The loop of `_normalize_path`, with at most `fuel` rounds. -/
def collapseFuel : Nat → List Char → List Char
  | 0, cs => cs
  | fuel + 1, cs => if hasDoubleSlash cs then collapseFuel fuel (halveSlashes cs) else cs

def collapseSlashes (cs : List Char) : List Char := collapseFuel cs.length cs

/-- The path behind the first prefix of the deployment it starts with. -/
def stripDeployment (cs : List Char) : List Char :=
  match ["/llm-proxy2-smoke", "/llm-proxy2"].find? fun pre => pre.toList.isPrefixOf cs with
  | some pre => if (cs.drop pre.length).isEmpty then ['/'] else cs.drop pre.length
  | none => cs

/-- `_normalize_path`. -/
def normalizePath (path : String) : String :=
  if path = "" then "/"
  else
    let p := collapseSlashes (stripDeployment path.toList)
    String.ofList (if 1 < p.length && p.getLast? == some '/' then p.dropLast else p)

def bypassPrefixes : List String :=
  ["/health", "/version", "/metrics", "/favicon", "/api/auth/", "/cluster/", "/assets/"]

def isBypassPath (path : String) : Bool := bypassPrefixes.any (PyStr.startsWith path)

theorem halveSlashes_length_le (cs : List Char) : (halveSlashes cs).length ≤ cs.length := by
  induction cs using halveSlashes.induct with
  | case1 rest ih =>
    unfold halveSlashes
    simp only [List.length_cons]
    omega
  | case2 c rest hne ih =>
    rw [halveSlashes]
    · simp only [List.length_cons]
      omega
    · exact hne
  | case3 => exact Nat.le_refl 0

theorem halveSlashes_length_lt {cs : List Char} (h : hasDoubleSlash cs = true) :
    (halveSlashes cs).length < cs.length := by
  induction cs using halveSlashes.induct with
  | case1 rest ih =>
    have hle := halveSlashes_length_le rest
    unfold halveSlashes
    simp only [List.length_cons]
    omega
  | case2 c rest hne ih =>
    rw [hasDoubleSlash] at h
    · have hlt := ih h
      rw [halveSlashes]
      · simp only [List.length_cons]
        omega
      · exact hne
    · exact hne
  | case3 => cases h

theorem collapseFuel_noDouble {fuel : Nat} {cs : List Char} (h : cs.length ≤ fuel) :
    hasDoubleSlash (collapseFuel fuel cs) = false := by
  induction fuel generalizing cs with
  | zero =>
    rw [List.length_eq_zero_iff.mp (Nat.le_zero.mp h)]
    rfl
  | succ fuel ih =>
    unfold collapseFuel
    split
    · next hdouble =>
      have hlt := halveSlashes_length_lt hdouble
      exact ih (by omega)
    · next hnone => simpa using hnone

example : normalizePath "/llm-proxy2/v1//messages/" = "/v1/messages" := by decide

/-! ## Keys -/

structure Headers where
  authorization : Option String
  xApiKey : Option String

def present (raw : Option String) : Option String := raw.filter (· != "")

/-- `auth[7:]` of a header that starts with `start`. -/
def afterScheme (start auth : String) (authorization : String) : Option String :=
  if PyStr.startsWith auth start then some (String.ofList (authorization.toList.drop 7)) else none

/-- The token of an `Authorization: Bearer` header, whatever the case of the scheme. -/
def bearer (authorization : Option String) : Option String :=
  let auth := authorization.getD ""
  (afterScheme "bearer " (PyStr.lower auth) auth).map PyStr.strip

/-- `_extract_raw_key`, of the middleware: the token first. -/
def extractRawKey (h : Headers) : Option String :=
  match bearer h.authorization with
  | some token => present (some token)
  | none => h.xApiKey

/-- The callers of `verify_api_key`. -/
inductive Endpoint where
  | dependency
  | completions
  | messages
  | myCompliance
  | mcp
  deriving DecidableEq

def Endpoint.rawKey : Endpoint → Headers → Option String
  | .dependency, h => (present h.xApiKey).or (bearer h.authorization)
  | .completions, h =>
    -- the scheme as it is written, and the token with its blanks
    (present h.xApiKey).or
      (afterScheme "Bearer " (h.authorization.getD "") (h.authorization.getD ""))
  | .messages, h => h.xApiKey
  | .myCompliance, h => (present (bearer h.authorization)).or h.xApiKey
  | .mcp, h => bearer h.authorization

/-- The columns of `api_keys` the two read. -/
structure KeyRow where
  id : String
  keyHash : String
  enabled : Bool
  deletedAt : Option Nat
  allowedPaths : Option (List String)
  debugEchoEnabled : Bool

/-- The table; its `key_hash` column is unique. -/
structure KeyTable where
  rows : List KeyRow
  unique : (rows.map (·.keyHash)).Nodup

def KeyTable.lookup (table : KeyTable) (keyHash : String) : Option KeyRow :=
  table.rows.find? fun row => row.keyHash == keyHash && row.enabled && row.deletedAt.isNone

structure World where
  sha256 : String → String
  table : KeyTable
  lookupFails : Bool
  /-- the caps and rates of `verify_api_key`: status and detail of a refusal -/
  limits : KeyRow → Option (Nat × String)
  auditId : String

def verifyApiKey (w : World) (rawKey : Option String) : Except (Nat × String) KeyRow :=
  match present rawKey with
  | none => .error (401, "Missing API key")
  | some raw =>
    match w.table.lookup (w.sha256 raw) with
    | none => .error (401, "Invalid or disabled API key")
    | some key =>
      match w.limits key with
      | some refusal => .error refusal
      | none => .ok key

/-! ## The middleware -/

inductive Verdict where
  | pass
  | refuse (key : KeyRow) (allowed : List String)
  | failed

def check (w : World) (h : Headers) (path : String) : Verdict :=
  if isBypassPath path then .pass
  else match present (extractRawKey h) with
    | none => .pass
    | some raw =>
      if w.lookupFails then .failed
      else match w.table.lookup (w.sha256 raw) with
        | none => .pass
        | some key =>
          match key.allowedPaths with
          | none => .pass
          | some allowed =>
            if key.debugEchoEnabled && path == "/api/debug/echo-client" then .pass
            else if allowed.contains path then .pass
            else .refuse key allowed

/-- What a handler raises: an `Exception`, or one of the others, as a cancellation is. -/
inductive Raised where
  | exception (text : String)
  | cancelled

structure PathNotAllowed where
  requestedPath : String
  allowedPaths : List String
  auditId : String

/-- A run of the middleware: how often it invoked the handler, and what came of it. -/
structure Passage (ρ : Type) where
  invoked : Nat
  outcome : Except Raised (PathNotAllowed ⊕ ρ)

variable {ρ : Type}

/-- `allowed_paths_middleware`; `downstream n` is the n-th invocation of the handler. -/
def allowedPathsMiddleware (w : World) (h : Headers) (path : String)
    (downstream : Nat → Except Raised ρ) : Passage ρ :=
  match check w h (normalizePath path) with
  | .refuse _ allowed => ⟨0, .ok (.inl ⟨normalizePath path, allowed, w.auditId⟩)⟩
  | .failed => ⟨1, (downstream 0).map .inr⟩
  | .pass =>
    match downstream 0 with
    -- the invocation stands inside the try of the checks
    | .error (.exception _) => ⟨2, (downstream 1).map .inr⟩
    | .error .cancelled => ⟨1, .error .cancelled⟩
    | .ok response => ⟨1, .ok (.inr response)⟩

/-- The endpoint serves the request as a key. -/
def Serves (w : World) (e : Endpoint) (h : Headers) (path : String)
    (downstream : Nat → Except Raised ρ) (key : KeyRow) : Prop :=
  0 < (allowedPathsMiddleware w h path downstream).invoked ∧
    verifyApiKey w (e.rawKey h) = .ok key

/-- The key may be used on a normalized path. -/
def Permits (key : KeyRow) (path : String) : Prop :=
  isBypassPath path = true ∨ (key.debugEchoEnabled = true ∧ path = "/api/debug/echo-client") ∨
    ∀ allowed, key.allowedPaths = some allowed → path ∈ allowed

/-! ## What the checks let through -/

section

variable {w : World} {e : Endpoint} {h : Headers} {path : String} {key : KeyRow}

theorem verifyApiKey_ok {raw : Option String} (hok : verifyApiKey w raw = .ok key) :
    ∃ text, present raw = some text ∧ w.table.lookup (w.sha256 text) = some key := by
  unfold verifyApiKey at hok
  cases hpresent : present raw with
  | none =>
    rw [hpresent] at hok
    cases hok
  | some text =>
    rw [hpresent] at hok
    dsimp only at hok
    cases hlookup : w.table.lookup (w.sha256 text) with
    | none =>
      rw [hlookup] at hok
      cases hok
    | some row =>
      rw [hlookup] at hok
      dsimp only at hok
      cases hlimits : w.limits row with
      | some refusal =>
        rw [hlimits] at hok
        cases hok
      | none =>
        rw [hlimits] at hok
        rw [← Except.ok.inj hok]
        exact ⟨text, rfl, hlookup⟩

theorem check_pass {text : String} (hraw : present (extractRawKey h) = some text)
    (hreads : w.lookupFails = false) (hkey : w.table.lookup (w.sha256 text) = some key)
    (hcheck : ∀ row allowed, check w h path ≠ .refuse row allowed) : Permits key path := by
  unfold check at hcheck
  split at hcheck
  · next hbypass => exact Or.inl hbypass
  · rw [hraw, hreads] at hcheck
    dsimp only at hcheck
    rw [if_neg Bool.false_ne_true, hkey] at hcheck
    dsimp only at hcheck
    cases hallowed : key.allowedPaths with
    | none => exact Or.inr (Or.inr fun allowed hsome => nomatch hallowed.symm.trans hsome)
    | some allowed =>
      rw [hallowed] at hcheck
      dsimp only at hcheck
      split at hcheck
      · next hecho =>
        obtain ⟨hdebug, hpath⟩ := Bool.and_eq_true_iff.mp hecho
        exact Or.inr (Or.inl ⟨hdebug, eq_of_beq hpath⟩)
      · split at hcheck
        · next hmem =>
          refine Or.inr (Or.inr fun other hsome => ?_)
          rw [hallowed] at hsome
          rw [← Option.some.inj hsome]
          exact List.contains_iff_mem.mp hmem
        · exact absurd rfl (hcheck key allowed)

theorem invoked_of_refuse {downstream : Nat → Except Raised ρ} {row : KeyRow}
    {allowed : List String} (hcheck : check w h (normalizePath path) = .refuse row allowed) :
    (allowedPathsMiddleware w h path downstream).invoked = 0 := by
  unfold allowedPathsMiddleware
  rw [hcheck]

theorem serves_of_pass {downstream : Nat → Except Raised ρ}
    (hcheck : ∀ row allowed, check w h (normalizePath path) ≠ .refuse row allowed) :
    0 < (allowedPathsMiddleware w h path downstream).invoked := by
  unfold allowedPathsMiddleware
  cases hverdict : check w h (normalizePath path) with
  | refuse row allowed => exact absurd hverdict (hcheck row allowed)
  | failed => exact Nat.one_pos
  | pass =>
    dsimp only
    split
    · exact Nat.two_pos
    · exact Nat.one_pos
    · exact Nat.one_pos

/-- A handler that raises no `Exception` is invoked once at most. -/
theorem invoked_le_one {downstream : Nat → Except Raised ρ}
    (hraises : ∀ text, downstream 0 ≠ .error (.exception text)) :
    (allowedPathsMiddleware w h path downstream).invoked ≤ 1 := by
  unfold allowedPathsMiddleware
  split
  · exact Nat.zero_le 1
  · exact Nat.le_refl 1
  · split
    · next text hraised => exact absurd hraised (hraises text)
    · exact Nat.le_refl 1
    · exact Nat.le_refl 1

end

/-! ## Confinement -/

/-- The read of the middleware gets through, and it is for the key the endpoint verifies. -/
def ReadsSameKey (sha256 : String → String) (lookupFails : Bool) (e : Endpoint) (h : Headers) :
    Prop :=
  ∀ text, present (e.rawKey h) = some text → lookupFails = false ∧
    ∃ other, present (extractRawKey h) = some other ∧ sha256 other = sha256 text

/-- A request with these headers is confined to the paths of the key it is served as, whatever the
table, the limits and the path, and its handler is invoked once at most. -/
structure Confines (sha256 : String → String) (lookupFails : Bool) (e : Endpoint) (h : Headers)
    (downstream : Nat → Except Raised ρ) : Prop where
  permitted : ∀ table limits auditId path key,
    Serves ⟨sha256, table, lookupFails, limits, auditId⟩ e h path downstream key →
      Permits key (normalizePath path)
  once : ∀ table limits auditId path,
    (allowedPathsMiddleware ⟨sha256, table, lookupFails, limits, auditId⟩ h path
      downstream).invoked ≤ 1

def lockedRow (keyHash : String) : KeyRow := ⟨"k1", keyHash, true, none, some [], false⟩

def lockedTable (keyHash : String) : KeyTable := ⟨[lockedRow keyHash], by simp⟩

theorem lookup_lockedTable (keyHash : String) :
    (lockedTable keyHash).lookup keyHash = some (lockedRow keyHash) := by
  unfold KeyTable.lookup lockedTable
  rw [List.find?_cons_of_pos]
  simp [lockedRow]

theorem lookup_lockedTable_ne {keyHash other : String} (hne : keyHash ≠ other) :
    (lockedTable keyHash).lookup other = none := by
  unfold KeyTable.lookup lockedTable
  simp [lockedRow, hne]

theorem not_confines_locked {sha256 : String → String} {lookupFails : Bool} {e : Endpoint}
    {h : Headers} {downstream : Nat → Except Raised ρ} {text : String}
    (hraw : present (e.rawKey h) = some text)
    (hcheck : ∀ row allowed,
      check ⟨sha256, lockedTable (sha256 text), lookupFails, fun _ => none, ""⟩ h "/v1/messages" ≠
        .refuse row allowed) : ¬ Confines sha256 lookupFails e h downstream := by
  intro hconfines
  have hpath : normalizePath "/v1/messages" = "/v1/messages" := by decide
  have hserves : Serves ⟨sha256, lockedTable (sha256 text), lookupFails, fun _ => none, ""⟩ e h
      "/v1/messages" downstream (lockedRow (sha256 text)) := by
    refine ⟨serves_of_pass (hpath ▸ hcheck), ?_⟩
    unfold verifyApiKey
    rw [hraw]
    dsimp only
    rw [lookup_lockedTable]
  rcases hconfines.permitted _ _ _ _ _ hserves with hbypass | ⟨hdebug, -⟩ | hallowed
  · exact absurd hbypass (by decide)
  · cases hdebug
  · exact absurd (hallowed [] rfl) List.not_mem_nil

/-- **Confinement** holds exactly when the middleware reads the row of the key the endpoint
verifies and the handler raises no `Exception`. -/
theorem confines_iff (sha256 : String → String) (lookupFails : Bool) (e : Endpoint) (h : Headers)
    (downstream : Nat → Except Raised ρ) :
    Confines sha256 lookupFails e h downstream ↔
      ReadsSameKey sha256 lookupFails e h ∧
        ∀ text, downstream 0 ≠ .error (.exception text) := by
  constructor
  · intro hconfines
    constructor
    · intro text hraw
      refine Classical.byContradiction fun hother => ?_
      refine not_confines_locked hraw (fun row allowed hcheck => hother ?_) hconfines
      unfold check at hcheck
      rw [if_neg (by decide)] at hcheck
      cases hkey : present (extractRawKey h) with
      | none =>
        rw [hkey] at hcheck
        cases hcheck
      | some other =>
        rw [hkey] at hcheck
        dsimp only at hcheck
        cases hfails : lookupFails with
        | true =>
          rw [hfails] at hcheck
          cases hcheck
        | false =>
          refine ⟨rfl, other, rfl, Decidable.byContradiction fun hne => ?_⟩
          rw [hfails, lookup_lockedTable_ne (fun hsame => hne hsame.symm)] at hcheck
          cases hcheck
    · intro text hraised
      -- the path of a probe passes without a key
      have honce := hconfines.once ⟨[], List.nodup_nil⟩ (fun _ => none) "" "/health"
      unfold allowedPathsMiddleware at honce
      rw [show check ⟨sha256, ⟨[], List.nodup_nil⟩, lookupFails, fun _ => none, ""⟩ h
        (normalizePath "/health") = .pass from rfl, hraised] at honce
      exact absurd honce (show ¬ 2 ≤ 1 by decide)
  · rintro ⟨hsame, hraises⟩
    refine ⟨fun table limits auditId path key hserves => ?_,
      fun table limits auditId path => invoked_le_one hraises⟩
    obtain ⟨hinvoked, hok⟩ := hserves
    obtain ⟨text, hraw, hlookup⟩ := verifyApiKey_ok hok
    obtain ⟨hreads, other, hother, hhash⟩ := hsame text hraw
    refine @check_pass ⟨sha256, table, lookupFails, limits, auditId⟩ h _ key other hother hreads ?_
      fun row allowed hcheck => ?_
    · rw [← hlookup]
      exact congrArg table.lookup hhash
    · rw [invoked_of_refuse hcheck] at hinvoked
      exact absurd hinvoked (Nat.lt_irrefl 0)

/-! ### Two keys in one request -/

/-- A key in each header. -/
def twoKeys : Headers := ⟨some "Bearer llmp-free", some "llmp-locked"⟩

/-- The key that serves the request is not the one that is checked. -/
theorem twoKeys_unconfined :
    ¬ Confines id false .dependency twoKeys (fun _ => Except.ok ()) := by
  refine @not_confines_locked Unit id false .dependency twoKeys _ "llmp-locked" (by decide) ?_
  intro row allowed hcheck
  have hkey : present (extractRawKey twoKeys) = some "llmp-free" := by decide
  unfold check at hcheck
  rw [if_neg (by decide), hkey] at hcheck
  cases hcheck

end LlmProxy.Auth
