import Overture.Lib.Delimited
import Overture.Lib.Table
import Overture.Lib.Utf8

/-!
# The key vault

The vault holds the provider keys of the tenants, in a table or in a map in memory, and remembers for an hour what a
provider said about a key. In memory a key is addressed by its tenant, provider and name with colons between them, and
the validity is remembered under tenant and provider alone. What is assumed of the stored procedures is
`Procedures.Lawful`.
-/

namespace Overture.KeyVault

structure Sealed where
  (encryptedKey iv tag : Text)
deriving DecidableEq

structure EncryptedKey where
  (id tenantID provider keyName : Text)
  secret : Sealed
  keyVersion : Int
  isActive : Bool
  isValid : Option Bool
  lastValidated : Option Nat
  createdAt : Nat
  createdBy : Text
deriving DecidableEq

def Owned (tenantID provider : Text) (k : EncryptedKey) : Prop := k.tenantID = tenantID ∧ k.provider = provider

instance (tenantID provider : Text) (k : EncryptedKey) : Decidable (Owned tenantID provider k) :=
  inferInstanceAs (Decidable (_ ∧ _))

structure MemoryEntry where
  mapKey : Text
  key : EncryptedKey

structure ValidationCacheEntry where
  cacheKey : Text
  isValid : Bool
  cachedAt : Nat

structure Answer where
  id : Text
  secret : Sealed
  isValid : Bool
deriving DecidableEq

abbrev KeyTable := Table EncryptedKey.id

/-- The vault with the table it uses; `answers` is the history of what the providers said. Times are in nanoseconds. -/
structure Vault where
  memory : Table MemoryEntry.mapKey := .empty
  rows : KeyTable := .empty
  cache : Table ValidationCacheEntry.cacheKey := .empty
  answers : List Answer := []
  now : Nat := 0

structure KeyArgs where
  (tenantID provider keyName : Text)
  secret : Sealed
  createdBy : Text

/-- The stored procedures; `none` where one raises. -/
structure Procedures where
  (storeTenantKey rotateTenantKey : KeyArgs → KeyTable → Option (KeyTable × Text))
  expireTenantKey : Text → Text → KeyTable → Option KeyTable
  markKeyValidated : Text → Bool → Option Text → KeyTable → Option KeyTable

def WritesFor (procedure : KeyArgs → KeyTable → Option (KeyTable × Text)) : Prop :=
  ∀ args rows rows' id, procedure args rows = some (rows', id) →
    (∀ k, ¬Owned args.tenantID args.provider k → (k ∈ rows'.rows ↔ k ∈ rows.rows)) ∧
    ∀ k, rows'.get? id = some k → Owned args.tenantID args.provider k

structure Procedures.Lawful (procs : Procedures) : Prop where
  store : WritesFor procs.storeTenantKey
  rotate : WritesFor procs.rotateTenantKey
  /-- The row with the id is changed, not moved to another tenant or provider. -/
  expire : ∀ id expiredBy rows rows', procs.expireTenantKey id expiredBy rows = some rows' →
    ∃ change : EncryptedKey → EncryptedKey, (∀ k, (change k).tenantID = k.tenantID ∧ (change k).provider = k.provider) ∧
      rows'.rows = rows.rows.map fun k => if k.id = id then change k else k
  /-- The outcome of the validation is set in the row with the id. -/
  mark : ∀ id isValid err rows rows', procs.markKeyValidated id isValid err rows = some rows' →
    ∃ valid validated, rows'.rows =
      rows.rows.map fun k => if k.id = id then { k with isValid := valid, lastValidated := validated } else k

/-- How the vault was made: `enabled` with a database. The cipher seals a key with a random IV. -/
structure Config where
  enabled : Bool
  procs : Procedures
  encrypt : Text → Text → Sealed
  decryptKey : Sealed → Option Text

def mapKeyOf (tenantID provider keyName : Text) : Text := tenantID ++ ':' :: (provider ++ ':' :: keyName)

def addressFront (tenantID provider : Text) : Text := tenantID ++ ':' :: (provider ++ [':'])

def cacheKeyOf (tenantID provider : Text) : Text := tenantID ++ ':' :: provider

def pick {α : Type} (n : Nat) (l : List α) : Option α := l[n % l.length]?

variable (cfg : Config)

def candidatesMemory (s : Vault) (tenantID provider : Text) : List MemoryEntry :=
  match ["default".toList, "primary".toList, "main".toList].findSome? fun keyName =>
      (s.memory.get? (mapKeyOf tenantID provider keyName)).filter fun e => e.key.isActive with
  | some e => [e]
  | none => s.memory.rows.filter fun e => (addressFront tenantID provider).isPrefixOf e.mapKey && e.key.isActive

def candidatesDB (s : Vault) (tenantID provider : Text) : List EncryptedKey :=
  let active := s.rows.rows.filter fun k => decide (Owned tenantID provider k) && k.isActive
  active.filter fun k => active.all fun other => other.createdAt ≤ k.createdAt

def candidates (s : Vault) (tenantID provider : Text) : List EncryptedKey :=
  if cfg.enabled then candidatesDB s tenantID provider
  else (candidatesMemory s tenantID provider).map MemoryEntry.key

def getActiveKey (n : Nat) (s : Vault) (tenantID provider : Text) : Option EncryptedKey :=
  pick n (candidates cfg s tenantID provider)

def readStatus (name : String) : Option Nat → Except Text Bool
  | none => .error (name.toList ++ " validation request failed")
  | some status =>
    if status = 200 ∨ status = 429 then .ok true
    else if status = 401 ∨ status = 403 then .ok false
    else .error (name.toList ++ " validation returned unexpected status " ++ Nat.toDigits 10 status)

def compatibleProviders : List (Text × String) :=
  [("xai", "xAI"), ("groq", "Groq"), ("qwen", "Qwen"), ("kimi", "Kimi"),
    ("moonshot", "Kimi"), ("glm", "GLM"), ("zai", "GLM"), ("deepseek", "DeepSeek"),
    ("mistral", "Mistral")]

def unaskedProviders : List Text :=
  ["google", "google_gemini", "cohere", "azure", "custom"]

def validateWithProvider (response : Option Nat) (provider apiKey : Text) : Except Text Bool :=
  if provider = "openai" then
    if "sk-".toList.isPrefixOf apiKey then readStatus "OpenAI" response
    else .error "invalid OpenAI key format (expected sk-* prefix)"
  else if provider = "anthropic" then
    if "sk-ant-".toList.isPrefixOf apiKey then readStatus "Anthropic" response
    else .error "invalid Anthropic key format (expected sk-ant-* prefix)"
  else
    match compatibleProviders.lookup provider with
    | some name => readStatus name response
    | none =>
      if provider ∈ unaskedProviders then
        if (Utf8.encode apiKey).length < 10 then .error "key appears to be too short" else .ok true
      else if provider = "benchmark" then .ok true
      else .error ("unknown provider: " ++ provider)

structure Chance where
  (id iv : Text)
  pick : Nat
  (answered effective : Bool)
  response : Option Nat
  took : Nat

inductive Op where
  | store (tenantID provider keyName plainKey createdBy : Text)
  | rotate (tenantID provider keyName plainKey rotatedBy : Text)
  | expire (tenantID provider keyName expiredBy : Text)
  | delete (tenantID provider : Text)
  | list (tenantID : Text)
  | get (tenantID provider : Text)
  | validate (tenantID provider : Text)
  | wait (time : Nat)

inductive Reply where
  | key (k : EncryptedKey)
  | keys (ks : List EncryptedKey)
  | plain (text : Text)
  | validity (isValid : Bool)
  | done
  | failed
deriving DecidableEq

structure Outcome where
  vault : Vault
  reply : Reply
  read : List EncryptedKey

def fail (s : Vault) (read : List EncryptedKey) : Outcome := ⟨s, .failed, read⟩

def callProcedure (procedure : KeyArgs → KeyTable → Option (KeyTable × Text)) (c : Chance) (args : KeyArgs)
    (s : Vault) : Outcome :=
  match procedure args s.rows with
  | none => fail s []
  | some (rows, id) =>
    if c.answered then
      match rows.get? id with
      | some k => ⟨{ s with rows }, .key k, [k]⟩
      | none => fail { s with rows } []
    else fail (if c.effective then { s with rows } else s) []

def storeKey (c : Chance) (tenantID provider keyName plainKey createdBy : Text) (s : Vault) : Outcome :=
  let secret := cfg.encrypt plainKey c.iv
  if cfg.enabled then callProcedure cfg.procs.storeTenantKey c ⟨tenantID, provider, keyName, secret, createdBy⟩ s
  else
    let key : EncryptedKey := ⟨c.id, tenantID, provider, keyName, secret, 1, true, none, none, s.now, createdBy⟩
    ⟨{ s with memory := s.memory.put ⟨mapKeyOf tenantID provider keyName, key⟩ }, .key key, [key]⟩

def rotateKey (c : Chance) (tenantID provider keyName plainKey rotatedBy : Text) (s : Vault) : Outcome :=
  let secret := cfg.encrypt plainKey c.iv
  if cfg.enabled then callProcedure cfg.procs.rotateTenantKey c ⟨tenantID, provider, keyName, secret, rotatedBy⟩ s
  else
    match s.memory.get? (mapKeyOf tenantID provider keyName) with
    | none => fail s []
    | some old =>
      let key : EncryptedKey :=
        ⟨c.id, tenantID, provider, keyName, secret, old.key.keyVersion + 1, true, none, none, s.now, rotatedBy⟩
      ⟨{ s with memory := s.memory.put ⟨mapKeyOf tenantID provider keyName, key⟩ }, .key key, [old.key, key]⟩

def changeAt (mapKey : Text) (change : EncryptedKey → EncryptedKey) (memory : Table MemoryEntry.mapKey) :
    Table MemoryEntry.mapKey :=
  memory.alter (fun e => if e.mapKey = mapKey then { e with key := change e.key } else e) fun e => by split <;> rfl

def expireKey (c : Chance) (tenantID provider keyName expiredBy : Text) (s : Vault) : Outcome :=
  if cfg.enabled then
    match pick c.pick (s.rows.rows.filter fun k =>
        decide (Owned tenantID provider k) && k.keyName == keyName && k.isActive) with
    | none => fail s []
    | some k =>
      match cfg.procs.expireTenantKey k.id expiredBy s.rows with
      | none => fail s [k]
      | some rows =>
        if c.answered then ⟨{ s with rows }, .done, [k]⟩ else fail (if c.effective then { s with rows } else s) [k]
  else
    match s.memory.get? (mapKeyOf tenantID provider keyName) with
    | none => fail s []
    | some e =>
      ⟨{ s with memory := changeAt e.mapKey (fun k => { k with isActive := false }) s.memory }, .done, [e.key]⟩

def deleteKey (c : Chance) (tenantID provider : Text) (s : Vault) : Outcome :=
  if cfg.enabled then
    let deleted := { s with rows := s.rows.keep fun k => !decide (Owned tenantID provider k) }
    if c.answered then ⟨deleted, .done, []⟩ else fail (if c.effective then deleted else s) []
  else
    ⟨{ s with memory := s.memory.keep fun e => !(addressFront tenantID provider).isPrefixOf e.mapKey }, .done, []⟩

def listKeys (c : Chance) (tenantID : Text) (s : Vault) : Outcome :=
  if cfg.enabled then
    let keys := s.rows.rows.filter fun k => k.tenantID == tenantID
    if c.answered then ⟨s, .keys keys, keys⟩ else fail s []
  else
    let keys := (s.memory.rows.filter fun e => (tenantID ++ [':']).isPrefixOf e.mapKey).map MemoryEntry.key
    ⟨s, .keys keys, keys⟩

def getKey (c : Chance) (tenantID provider : Text) (s : Vault) : Outcome :=
  match getActiveKey cfg c.pick s tenantID provider with
  | none => fail s []
  | some k =>
    match cfg.decryptKey k.secret with
    | none => fail s [k]
    | some plain => ⟨s, .plain plain, [k]⟩

def hour : Nat := 3600000000000

def cachedValidity (s : Vault) (tenantID provider : Text) : Option Bool :=
  ((s.cache.get? (cacheKeyOf tenantID provider)).filter fun e => decide (s.now < e.cachedAt + hour)).map
    ValidationCacheEntry.isValid

def markValidated (c : Chance) (k : EncryptedKey) (isValid : Bool) (err : Option Text) (s : Vault) : Vault :=
  if cfg.enabled then
    match cfg.procs.markKeyValidated k.id isValid err s.rows with
    | none => s
    | some rows => if c.answered ∨ c.effective then { s with rows } else s
  else
    let mark (k : EncryptedKey) := { k with isValid := some isValid, lastValidated := some s.now }
    { s with memory := changeAt (mapKeyOf k.tenantID k.provider k.keyName) mark s.memory }

def remember (tenantID provider : Text) (k : EncryptedKey) (isValid : Bool) (s : Vault) : Vault :=
  { s with
    cache := s.cache.put ⟨cacheKeyOf tenantID provider, isValid, s.now⟩
    answers := ⟨k.id, k.secret, isValid⟩ :: s.answers }

def validateKey (c : Chance) (tenantID provider : Text) (s : Vault) : Outcome :=
  match getActiveKey cfg c.pick s tenantID provider with
  | none => fail s []
  | some k =>
    match cfg.decryptKey k.secret with
    | none => fail s [k]
    | some plainKey =>
      match cachedValidity s tenantID provider with
      | some isValid => ⟨s, .validity isValid, [k]⟩
      | none =>
        let s := { s with now := s.now + c.took }
        match validateWithProvider c.response provider plainKey with
        | .error err => fail (markValidated cfg c k false (some err) s) [k]
        | .ok isValid =>
          ⟨markValidated cfg c k isValid none (remember tenantID provider k isValid s), .validity isValid, [k]⟩

def step (c : Chance) (s : Vault) : Op → Outcome
  | .store tenantID provider keyName plainKey createdBy => storeKey cfg c tenantID provider keyName plainKey createdBy s
  | .rotate tenantID provider keyName plainKey rotatedBy =>
    rotateKey cfg c tenantID provider keyName plainKey rotatedBy s
  | .expire tenantID provider keyName expiredBy => expireKey cfg c tenantID provider keyName expiredBy s
  | .delete tenantID provider => deleteKey cfg c tenantID provider s
  | .list tenantID => listKeys cfg c tenantID s
  | .get tenantID provider => getKey cfg c tenantID provider s
  | .validate tenantID provider => validateKey cfg c tenantID provider s
  | .wait time => ⟨{ s with now := s.now + time }, .done, []⟩

def stored (s : Vault) : List EncryptedKey := if cfg.enabled then s.rows.rows else s.memory.rows.map MemoryEntry.key

def Concerns : Op → EncryptedKey → Prop
  | .store tenantID provider _ _ _, k => Owned tenantID provider k
  | .rotate tenantID provider _ _ _, k => Owned tenantID provider k
  | .expire tenantID provider _ _, k => Owned tenantID provider k
  | .delete tenantID provider, k => Owned tenantID provider k
  | .list tenantID, k => k.tenantID = tenantID
  | .get tenantID provider, k => Owned tenantID provider k
  | .validate tenantID provider, k => Owned tenantID provider k
  | .wait _, _ => False

structure Isolated (op : Op) (s : Vault) (o : Outcome) : Prop where
  kept : ∀ k, ¬Concerns op k → (k ∈ stored cfg o.vault ↔ k ∈ stored cfg s)
  read : ∀ k ∈ o.read, Concerns op k

/-- A validity that is returned was said of every key that `GetKey` could return now, and there is one. -/
def Current (op : Op) (o : Outcome) : Prop :=
  ∀ tenantID provider isValid, op = .validate tenantID provider → o.reply = .validity isValid →
    (∃ n k, getActiveKey cfg n o.vault tenantID provider = some k) ∧
    ∀ n k, getActiveKey cfg n o.vault tenantID provider = some k → ⟨k.id, k.secret, isValid⟩ ∈ o.vault.answers

def Plain (tenantID provider : Text) : Prop := ':' ∉ tenantID ∧ (cfg.enabled = false → ':' ∉ provider)

/-- The tenant and, in memory, the provider have no colon; keys are not changed while a validity is remembered for
them; and when a key is validated there is no choice between several. -/
def Careful (s : Vault) : Op → Prop
  | .store tenantID provider _ _ _ => Plain cfg tenantID provider ∧ cachedValidity s tenantID provider = none
  | .rotate tenantID provider _ _ _ => Plain cfg tenantID provider ∧ cachedValidity s tenantID provider = none
  | .expire tenantID provider _ _ => Plain cfg tenantID provider ∧ cachedValidity s tenantID provider = none
  | .delete tenantID provider => Plain cfg tenantID provider ∧ cachedValidity s tenantID provider = none
  | .list tenantID => ':' ∉ tenantID
  | .get tenantID provider => Plain cfg tenantID provider
  | .validate tenantID provider => Plain cfg tenantID provider ∧
      ∀ k ∈ candidates cfg s tenantID provider, ∀ k' ∈ candidates cfg s tenantID provider, k = k'
  | .wait _ => True

inductive Reaches : Vault → Prop
  | start : Reaches {}
  | step {s : Vault} (h : Reaches s) (c : Chance) (op : Op) (hop : Careful cfg s op) :
    Reaches (step cfg c s op).vault

end Overture.KeyVault
