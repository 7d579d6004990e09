import HoneNode.Apply
import HoneNode.Tx.Checks

/-!
# LinkGit.Server — the git server and who may write to it

`linkgit_server.rs` and the git handlers of `api.rs`. Two ways lead in: a REST
interface, whose callers name their account in a header and may sign it, and the git
transport, where a name after `account ` in the `Authorization` header is all there is.
-/

namespace HoneNode.LinkGit

/-! ## Headers -/

/-- `HeaderMap`: names in lower case, the first value of a name first. -/
abbrev HeaderMap := List (String × Bytes)

/-- `HeaderValue::to_str`: visible ASCII, blanks and tabs. -/
def headerText (v : Bytes) : Option String :=
  if v.all fun b => (32 ≤ b && b < 127) || b == 9 then
    some (String.ofList (v.map fun b => Char.ofNat b.toNat))
  else none

def HeaderMap.text (headers : HeaderMap) (name : String) : Option String :=
  (headers.find? (·.1 = name)).bind fun header => headerText header.2

/-- The account that the `X-HONE-Account` header names. -/
def reqAccount (headers : HeaderMap) : Option String :=
  ((headers.text "x-hone-account").map trim).filter (· ≠ "")

/-- The account that the `Authorization` header names. -/
def gitAuth (headers : HeaderMap) : Option String :=
  (headers.text "authorization").bind fun v =>
    if hasPrefix "account " v then some (trim (dropPrefix "account " v)) else none

/-! ## The store of the REST interface -/

structure RepoMeta where
  (owner name description defaultBranch cloneUrl : String) (createdEpoch : ℕ) (isPrivate : Bool)
  (stars : ℕ)

structure IssueMeta where
  (number : ℕ) (title body : String) (labels : List String) (state author repo : String)
  (createdEpoch updatedEpoch : ℕ)

structure HookMeta where
  (id url : String) (events : List String) (secretHash : String) (active : Bool)
  (createdEpoch : ℕ)

structure TokenMeta where
  (id name : String) (scopes : List String) (account tokenHash : String) (createdEpoch : ℕ)
  (revoked : Bool)

structure GitServer where
  chain : Chain
  /-- `key:{account}:active`. -/
  activeKeys : Kv String Bytes := ∅
  /-- `git_repo:{owner}/{name}`. -/
  repos : Kv String RepoMeta := ∅
  /-- `git_issue:{owner}/{repo}:{number}`. -/
  issues : Kv String IssueMeta := ∅
  /-- `git_issue_counter:{owner}/{repo}`. -/
  issueCounters : Kv String ℕ := ∅
  /-- `git_hook:{owner}/{repo}:{id}`. -/
  hooks : Kv String HookMeta := ∅
  /-- `git_token:{id}`. -/
  tokens : Kv String TokenMeta := ∅
  /-- `git_token_account:{account}:{id}`. -/
  tokenAccounts : Kv String String := ∅

/-! ## Failures -/

/-- The status of a response, and the text of its `error` field. -/
abbrev Failure := ℕ × String

def require (c : Prop) [Decidable c] (status : ℕ) (text : String) : Except Failure Unit :=
  if c then .ok () else .error (status, text)

def orReject {α : Type} (o : Option α) (status : ℕ) (text : String) : Except Failure α :=
  match o with
  | some a => .ok a
  | none => .error (status, text)

section Failures

variable {α β : Type} {status : ℕ} {text : String} {b : β}

theorem require_bind_eq_ok {c : Prop} [Decidable c] {f : Unit → Except Failure β} :
    (require c status text >>= f) = .ok b ↔ c ∧ f () = .ok b := by
  unfold require
  by_cases hc : c
  · rw [if_pos hc]
    exact (and_iff_right hc).symm
  · rw [if_neg hc]
    exact iff_of_false nofun fun h => hc h.1

theorem orReject_bind_eq_ok {o : Option α} {f : α → Except Failure β} :
    (orReject o status text >>= f) = .ok b ↔ ∃ a, o = some a ∧ f a = .ok b := by
  cases o with
  | none => exact iff_of_false nofun nofun
  | some a =>
    constructor
    · exact fun h => ⟨a, rfl, h⟩
    · rintro ⟨a', ha, h⟩
      cases ha
      exact h

theorem require_eq_ok {c : Prop} [Decidable c] : require c status text = .ok () ↔ c := by
  unfold require
  by_cases hc : c
  · rw [if_pos hc]
    exact iff_of_true rfl hc
  · rw [if_neg hc]
    exact iff_of_false nofun hc

end Failures

/-! ## Authentication of the REST interface -/

/-- The posting key of the account, else what is stored as its active key. -/
def keyHex (s : GitServer) (account : String) : Option String :=
  (Tx.keyOf s.chain account "posting").or
    ((s.activeKeys.get account).bind fun v => String.fromUTF8? ⟨v.toArray⟩)

/-- The account has a record, or an active key is stored for it. -/
def Known (s : GitServer) (account : String) : Prop :=
  (s.chain.getAccount account).isSome = true ∨ (s.activeKeys.get account).isSome = true

instance (s : GitServer) (account : String) : Decidable (Known s account) :=
  inferInstanceAs (Decidable (_ ∨ _))

/-- Not more than 300 seconds old, and not more than 30 ahead. -/
def Fresh (now ts : ℕ) : Prop := now - ts ≤ 300 ∧ ts - now ≤ 30

instance (now ts : ℕ) : Decidable (Fresh now ts) := inferInstanceAs (Decidable (_ ∧ _))

/-- The signature in the headers is checked against the key of the account. -/
def verifySession (env : Env) (now : ℕ) (headers : HeaderMap) (s : GitServer)
    (account sigHex : String) : Except Failure Unit := do
  let tsStr ← orReject (headers.text "x-hone-timestamp") 401
    "X-HONE-Timestamp required with X-HONE-Signature"
  let ts ← orReject (parseU64 tsStr) 401 "invalid X-HONE-Timestamp"
  require (Fresh now ts) 401 "X-HONE-Timestamp out of acceptable window"
  let pubkeyHex ← orReject (keyHex s account) 401 "account has no posting key registered"
  let pk ← orReject (hexDecode pubkeyHex) 500 "stored key is not valid hex"
  require (pk.length = 32) 500 "stored key must be 32 bytes"
  require (env.keyError pk = none) 500 "invalid ed25519 public key"
  let sig ← orReject (hexDecode sigHex) 401 "X-HONE-Signature is not valid hex"
  require (sig.length = 64) 401 "X-HONE-Signature must be 64 bytes"
  require (env.verifyLax pk (Text.bytes s!"linkgit:{account}:{tsStr}") sig = true) 401
    "signature verification failed"

def requireAuth (env : Env) (now : ℕ) (headers : HeaderMap) (s : GitServer) :
    Except Failure String := do
  let account ← orReject (reqAccount headers) 401 "X-HONE-Account header required"
  require (Known s account) 401 "account not found or has no active key"
  match headers.text "x-hone-signature" with
  | none => pure account
  | some sigHex => do
    verifySession env now headers s account sigHex
    pure account

/-! ## The write endpoints -/

structure CreateRepoBody where
  name : String
  description : String := ""
  «private» : Bool := false
  defaultBranch : String := "main"

structure UpdateRepoBody where
  description : Option String
  «private» : Option Bool

structure CreateIssueBody where
  title : String
  body : String := ""
  labels : List String := []

structure UpdateIssueBody where
  (state title body : Option String)

structure CreateHookBody where
  url : String
  events : List String := []
  secret : String := ""

structure CreateTokenBody where
  name : String
  scopes : List String := []
  account : String

/-- What an endpoint answers. -/
inductive Reply where
  | failed (status : ℕ) (text : String)
  | repo (status : ℕ) (m : RepoMeta)
  | repoDeleted (repo : String)
  | issue (status : ℕ) (m : IssueMeta)
  | hook (m : HookMeta)
  | hookDeleted (id : String)
  | token (m : TokenMeta) (plain : String)
  | tokenRevoked (id : String)

/-- What an endpoint does once the caller is known. -/
abbrev Endpoint := (account : String) → GitServer → Except Failure (Reply × GitServer)

def apiCreateRepo (owner : String) (body : CreateRepoBody) : Endpoint := fun account s => do
  require (account = owner) 403 "can only create repos under your own account"
  let key := s!"{owner}/{body.name}"
  require ((s.repos.get key).isNone = true) 409 "repo already exists"
  let m : RepoMeta := ⟨owner, body.name, body.description, body.defaultBranch,
    s!"https://git.honemesh.net/{owner}/{body.name}", s.chain.currentEpoch, body.private, 0⟩
  pure (.repo 201 m, { s with repos := s.repos.put key m })

def apiDeleteRepo (owner repo : String) : Endpoint := fun account s => do
  require (account = owner) 403 "only owner can delete repo"
  let key := s!"{owner}/{repo}"
  require ((s.repos.get key).isSome = true) 404 "repo not found"
  pure (.repoDeleted repo, { s with repos := s.repos.del key })

def apiUpdateRepo (owner repo : String) (body : UpdateRepoBody) : Endpoint := fun account s => do
  require (account = owner) 403 "only owner can update repo"
  let key := s!"{owner}/{repo}"
  let m ← orReject (s.repos.get key) 404 "repo not found"
  let m' := { m with
    description := body.description.getD m.description
    isPrivate := body.private.getD m.isPrivate }
  pure (.repo 200 m', { s with repos := s.repos.put key m' })

/-- Anybody may open an issue. -/
def apiCreateIssue (owner repo : String) (body : CreateIssueBody) : Endpoint := fun account s => do
  let name := s!"{owner}/{repo}"
  require ((s.repos.get name).isSome = true) 404 "repo not found"
  let number := wrapAdd ((s.issueCounters.get name).getD 0) 1
  let epoch := s.chain.currentEpoch
  let m : IssueMeta := ⟨number, body.title, body.body, body.labels, "open", account, name, epoch,
    epoch⟩
  pure (.issue 201 m, { s with
    issueCounters := s.issueCounters.put name number
    issues := s.issues.put s!"{name}:{number}" m })

def apiUpdateIssue (owner repo : String) (number : ℕ) (body : UpdateIssueBody) : Endpoint :=
  fun account s => do
    let key := s!"{owner}/{repo}:{number}"
    let m ← orReject (s.issues.get key) 404 "issue not found"
    require (account = owner ∨ account = m.author) 403 "not authorized to update this issue"
    require (∀ st ∈ body.state, st = "open" ∨ st = "closed") 400 "state must be 'open' or 'closed'"
    let m' := { m with
      state := body.state.getD m.state
      title := body.title.getD m.title
      body := body.body.getD m.body
      updatedEpoch := s.chain.currentEpoch }
    pure (.issue 200 m', { s with issues := s.issues.put key m' })

/-- `hookId` is drawn at random. -/
def apiCreateHook (env : Env) (owner repo hookId : String) (body : CreateHookBody) : Endpoint :=
  fun account s => do
    require (account = owner) 403 "only owner can create hooks"
    require ((s.repos.get s!"{owner}/{repo}").isSome = true) 404 "repo not found"
    let secretHash := if body.secret = "" then "" else env.sha256Hex body.secret
    let m : HookMeta := ⟨hookId, body.url, body.events, secretHash, true, s.chain.currentEpoch⟩
    pure (.hook { m with secretHash := "" },
      { s with hooks := s.hooks.put s!"{owner}/{repo}:{hookId}" m })

def apiDeleteHook (owner repo hookId : String) : Endpoint := fun account s => do
  require (account = owner) 403 "only owner can delete hooks"
  let key := s!"{owner}/{repo}:{hookId}"
  require ((s.hooks.get key).isSome = true) 404 "hook not found"
  pure (.hookDeleted hookId, { s with hooks := s.hooks.del key })

/-- `raw` are 32 random bytes; only the digest of the token is kept. -/
def apiCreateToken (env : Env) (raw : Bytes) (body : CreateTokenBody) : Endpoint :=
  fun account s => do
    require (account = body.account) 403 "account mismatch"
    let plain := s!"hone_{hexEncode raw}"
    let tokenId := hexEncode (raw.take 8)
    let m : TokenMeta := ⟨tokenId, body.name, body.scopes, account, env.sha256Hex plain,
      s.chain.currentEpoch, false⟩
    pure (.token { m with tokenHash := "" } plain, { s with
      tokens := s.tokens.put tokenId m
      tokenAccounts := s.tokenAccounts.put s!"{account}:{tokenId}" tokenId })

def apiRevokeToken (tokenId : String) : Endpoint := fun account s => do
  let m ← orReject (s.tokens.get tokenId) 404 "token not found"
  require (m.account = account) 403 "not your token"
  pure (.tokenRevoked tokenId, { s with tokens := s.tokens.put tokenId { m with revoked := true } })

/-- A call of a write endpoint. -/
inductive WriteCall where
  | createRepo (owner : String) (body : CreateRepoBody)
  | deleteRepo (owner repo : String)
  | updateRepo (owner repo : String) (body : UpdateRepoBody)
  | createIssue (owner repo : String) (body : CreateIssueBody)
  | updateIssue (owner repo : String) (number : ℕ) (body : UpdateIssueBody)
  | createHook (owner repo hookId : String) (body : CreateHookBody)
  | deleteHook (owner repo hookId : String)
  | createToken (raw : Bytes) (body : CreateTokenBody)
  | revokeToken (tokenId : String)

def WriteCall.endpoint (env : Env) : WriteCall → Endpoint
  | .createRepo owner body => apiCreateRepo owner body
  | .deleteRepo owner repo => apiDeleteRepo owner repo
  | .updateRepo owner repo body => apiUpdateRepo owner repo body
  | .createIssue owner repo body => apiCreateIssue owner repo body
  | .updateIssue owner repo number body => apiUpdateIssue owner repo number body
  | .createHook owner repo hookId body => apiCreateHook env owner repo hookId body
  | .deleteHook owner repo hookId => apiDeleteHook owner repo hookId
  | .createToken raw body => apiCreateToken env raw body
  | .revokeToken tokenId => apiRevokeToken tokenId

/-- Every write endpoint authenticates first. -/
def handleWrite (env : Env) (now : ℕ) (headers : HeaderMap) (call : WriteCall) (s : GitServer) :
    Reply × GitServer :=
  match requireAuth env now headers s with
  | .error (status, text) => (.failed status text, s)
  | .ok account => match call.endpoint env account s with
    | .error (status, text) => (.failed status text, s)
    | .ok r => r

/-! ## The git transport -/

def findRepo (s : Chain) (owner name : String) : Option (String × GitRepo) := do
  let repoId ← s.stateGet .linkGitByName s!"{owner}:{name}"
  let repo ← s.stateGet .linkGitRepo repoId
  return (repoId, repo)

/-- The owner, or an account with an access record. -/
def hasAccess (s : Chain) (repo : GitRepo) (repoId account : String) : Bool :=
  repo.owner = account || (s.stateGet .linkGitAccess s!"{repoId}:{account}").isSome

def canWrite (s : Chain) (repo : GitRepo) (repoId : String) (auth : Option String) : Bool :=
  let account := auth.getD ""
  account ≠ "" && hasAccess s repo repoId account

def canRead (s : Chain) (repo : GitRepo) (repoId : String) (auth : Option String) : Bool :=
  repo.visibility = "public" || canWrite s repo repoId auth

/-- A parsed push: old hash, new hash and name of each ref, and why its pack could not be
stored, if it could not. -/
structure Push where
  updates : List (String × String × String)
  packError : Option String

inductive GitReply where
  | failed (status : ℕ) (text : String)
  | refs (service : String) (refs : List (String × String))
  | pack (pack : Bytes)
  | report (refNames : List String) (errors : Kv String String)

def infoRefs (s : Chain) (owner repoName service : String) (auth : Option String) : GitReply :=
  match findRepo s owner repoName with
  | none => .failed 404 "repository not found"
  | some (repoId, repo) =>
    let allowed := if service = "git-receive-pack" then canWrite s repo repoId auth
      else canRead s repo repoId auth
    if allowed then .refs service repo.refs.bindings else .failed 401 "authentication required"

/-- `objects` packs what the request wants of a repository. -/
def uploadPack (objects : String → Bytes) (s : Chain) (owner repoName : String)
    (auth : Option String) : GitReply :=
  match findRepo s owner repoName with
  | none => .failed 404 "repository not found"
  | some (repoId, repo) =>
    if canRead s repo repoId auth then .pack (objects repoId)
    else .failed 401 "authentication required"

/-- The entry that an updated ref becomes. -/
def refUpdate (repoId owner pusher : String) (epoch : ℕ) (update : String × String × String) :
    Entry.LinkGitRefUpdate where
  repoId := repoId
  owner := owner
  refName := update.2.2
  commitHash := update.2.1
  prevHash := if update.1 = "0000000000000000000000000000000000000000" then none else some update.1
  epoch := epoch
  signedBy := pusher

/-- Refs with an error are passed over; the others go straight to `apply_entry`. -/
def pushRefs (env : Env) (now : ℕ) (repoId owner pusher : String) :
    List (String × String × String) → Kv String String → Chain → Kv String String × Chain
  | [], errors, s => (errors, s)
  | update :: rest, errors, s =>
    if (errors.get update.2.2).isSome then pushRefs env now repoId owner pusher rest errors s
    else match applyEntry env now
        (.linkGitRefUpdate (refUpdate repoId owner pusher s.currentEpoch update)) s with
      | (.ok (), s') => pushRefs env now repoId owner pusher rest errors s'
      | (.error (.err msg), s') =>
        pushRefs env now repoId owner pusher rest (errors.put update.2.2 msg) s'
      | (.error (.panic msg), s') => (errors.put update.2.2 msg, s')

def gitReceivePack (env : Env) (now : ℕ) (s : Chain) (owner repoName : String) (push : Push)
    (auth : Option String) : GitReply × Chain :=
  match findRepo s owner repoName with
  | none => (.failed 404 "repository not found", s)
  | some (repoId, repo) =>
    if canWrite s repo repoId auth then
      let refNames := push.updates.map (·.2.2)
      let failed := refNames.foldl (fun errors name => match push.packError with
        | some e => errors.put name s!"pack error: {e}"
        | none => errors) ∅
      let (errors, s') := pushRefs env now repoId repo.owner (auth.getD repo.owner) push.updates
        failed s
      (.report refNames errors, s')
    else (.failed 401 "authentication required", s)

end HoneNode.LinkGit
