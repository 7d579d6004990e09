import HoneNode.LinkGit.Server

/-!
# LinkGit.Access — whose rights a request uses

Every write of the REST interface is made for the account that `require_auth` returns,
and every push for the account that the `Authorization` header names. Neither has to
have signed: `require_auth` looks at a signature only if one is sent, and the git
transport at none.

1. **`require_auth`** accepts who is known and has signed, or sent no signature
   (`requireAuth_eq_ok_iff`).
2. **Whose rights are used** where something is written or handed out
   (`acts_of_write`, `acts_of_push`, `acts_of_read`).
3. **When that account has signed** (`signed_iff`).
-/

namespace HoneNode.LinkGit

/-! ## What `require_auth` accepts -/

/-- The request names the account and carries an ed25519 signature by its posting key, else
the stored active key, over a fresh timestamp. -/
def Established (env : Env) (now : ℕ) (headers : HeaderMap) (s : GitServer) (account : String) :
    Prop :=
  reqAccount headers = some account ∧ ∃ sigHex tsStr ts pubkeyHex pk sig,
    headers.text "x-hone-signature" = some sigHex ∧
    headers.text "x-hone-timestamp" = some tsStr ∧ parseU64 tsStr = some ts ∧ Fresh now ts ∧
    keyHex s account = some pubkeyHex ∧ hexDecode pubkeyHex = some pk ∧ pk.length = 32 ∧
    env.keyError pk = none ∧ hexDecode sigHex = some sig ∧ sig.length = 64 ∧
    env.verifyLax pk (Text.bytes s!"linkgit:{account}:{tsStr}") sig = true

section Auth

variable {env : Env} {now : ℕ} {headers : HeaderMap} {s : GitServer} {account sigHex : String}

theorem verifySession_eq_ok_iff : verifySession env now headers s account sigHex = .ok () ↔
    ∃ tsStr ts pubkeyHex pk sig, headers.text "x-hone-timestamp" = some tsStr ∧
      parseU64 tsStr = some ts ∧ Fresh now ts ∧ keyHex s account = some pubkeyHex ∧
      hexDecode pubkeyHex = some pk ∧ pk.length = 32 ∧ env.keyError pk = none ∧
      hexDecode sigHex = some sig ∧ sig.length = 64 ∧
      env.verifyLax pk (Text.bytes s!"linkgit:{account}:{tsStr}") sig = true := by
  unfold verifySession
  simp only [orReject_bind_eq_ok, require_bind_eq_ok, require_eq_ok]
  constructor
  · rintro ⟨tsStr, hstr, ts, hts, hfresh, hex, hhex, pk, hpk, hlen, herr, sig, hsig, hlen', hver⟩
    exact ⟨tsStr, ts, hex, pk, sig, hstr, hts, hfresh, hhex, hpk, hlen, herr, hsig, hlen', hver⟩
  · rintro ⟨tsStr, ts, hex, pk, sig, hstr, hts, hfresh, hhex, hpk, hlen, herr, hsig, hlen', hver⟩
    exact ⟨tsStr, hstr, ts, hts, hfresh, hex, hhex, pk, hpk, hlen, herr, sig, hsig, hlen', hver⟩

theorem established_iff (hsig : headers.text "x-hone-signature" = some sigHex) :
    Established env now headers s account ↔
      reqAccount headers = some account ∧
        verifySession env now headers s account sigHex = .ok () := by
  rw [verifySession_eq_ok_iff]
  constructor
  · rintro ⟨hreq, sigHex', tsStr, ts, hex, pk, sig, hsig', hrest⟩
    rw [hsig] at hsig'
    cases hsig'
    exact ⟨hreq, tsStr, ts, hex, pk, sig, hrest⟩
  · rintro ⟨hreq, tsStr, ts, hex, pk, sig, hrest⟩
    exact ⟨hreq, sigHex, tsStr, ts, hex, pk, sig, hsig, hrest⟩

/-- Who has signed has a key, and who has a key is known. -/
theorem Established.known (h : Established env now headers s account) : Known s account := by
  obtain ⟨-, -, -, -, hex, -, -, -, -, -, -, hhex, -⟩ := h
  rcases Option.or_eq_some_iff.1 hhex with hrecord | ⟨-, hstored⟩
  · obtain ⟨r, hr, -⟩ := Option.bind_eq_some_iff.1 (Option.filter_eq_some_iff.1 hrecord).1
    exact .inl (Option.isSome_iff_exists.2 ⟨r, hr⟩)
  · obtain ⟨v, hv, -⟩ := Option.bind_eq_some_iff.1 hstored
    exact .inr (Option.isSome_iff_exists.2 ⟨v, hv⟩)

/-- A known account passes if it has signed, and if it has not. -/
theorem requireAuth_eq_ok_iff : requireAuth env now headers s = .ok account ↔
    headers.text "x-hone-signature" = none ∧ reqAccount headers = some account ∧ Known s account ∨
      Established env now headers s account := by
  unfold requireAuth
  rw [orReject_bind_eq_ok]
  simp only [require_bind_eq_ok]
  cases hsig : headers.text "x-hone-signature" with
  | none =>
    constructor
    · rintro ⟨a, hreq, hknown, hret⟩
      cases hret
      exact .inl ⟨rfl, hreq, hknown⟩
    · rintro (⟨-, hreq, hknown⟩ | ⟨-, sigHex, -, -, -, -, -, hsig', -⟩)
      · exact ⟨account, hreq, hknown, rfl⟩
      · rw [hsig] at hsig'
        cases hsig'
  | some sigHex =>
    constructor
    · rintro ⟨a, hreq, hknown, hret⟩
      right
      rw [established_iff hsig]
      dsimp only at hret
      rcases hver : verifySession env now headers s a sigHex with f | ⟨⟩
      · rw [hver] at hret
        cases hret
      · rw [hver] at hret
        cases hret
        exact ⟨hreq, hver⟩
    · rintro (⟨hnone, -⟩ | hest)
      · cases hnone
      · obtain ⟨hreq, hver⟩ := (established_iff hsig).1 hest
        refine ⟨account, hreq, hest.known, ?_⟩
        dsimp only
        rw [hver]
        rfl

/-- Signed is who passes with a signature. -/
theorem established_iff_requireAuth : Established env now headers s account ↔
    (headers.text "x-hone-signature").isSome = true ∧ requireAuth env now headers s = .ok account := by
  constructor
  · intro h
    obtain ⟨-, sigHex, -, -, -, -, -, hsig, -⟩ := id h
    exact ⟨Option.isSome_iff_exists.2 ⟨sigHex, hsig⟩, requireAuth_eq_ok_iff.2 (.inr h)⟩
  · rintro ⟨hsome, hok⟩
    rcases requireAuth_eq_ok_iff.1 hok with ⟨hnone, -⟩ | h
    · rw [hnone] at hsome
      cases hsome
    · exact h

end Auth

/-! ## Whose rights are used -/

inductive Request where
  | write (call : WriteCall)
  | infoRefs (owner repo service : String)
  | uploadPack (owner repo : String)
  | receivePack (owner repo : String) (push : Push)

/-- The repository a git request is about, and whether it is to be written to. -/
def Request.target : Request → Option (String × String × Bool)
  | .write _ => none
  | .infoRefs owner repo service => some (owner, repo, decide (service = "git-receive-pack"))
  | .uploadPack owner repo => some (owner, repo, false)
  | .receivePack owner repo _ => some (owner, repo, true)

/-- The account has rights in a repository that not everybody has. -/
def HasRight (s : GitServer) (owner repo : String) (push : Bool) (account : String) : Prop :=
  ∃ repoId r, findRepo s.chain owner repo = some (repoId, r) ∧
    (push = true ∨ r.visibility ≠ "public") ∧ canWrite s.chain r repoId (some account) = true

/-- The request is let through with the rights of the account. -/
def ActsAs (env : Env) (now : ℕ) (headers : HeaderMap) (s : GitServer) (req : Request)
    (account : String) : Prop :=
  match req.target with
  | none => requireAuth env now headers s = .ok account
  | some (owner, repo, push) => gitAuth headers = some account ∧ HasRight s owner repo push account

/-- What the endpoints ask of the account they act for. -/
def Permits (s : GitServer) (account : String) : WriteCall → Prop
  | .createRepo owner _ | .deleteRepo owner _ | .updateRepo owner _ _ | .createHook owner _ _ _
  | .deleteHook owner _ _ => account = owner
  | .createIssue owner repo _ => (s.repos.get s!"{owner}/{repo}").isSome = true
  | .updateIssue owner repo number _ =>
    ∃ m, s.issues.get s!"{owner}/{repo}:{number}" = some m ∧ (account = owner ∨ account = m.author)
  | .createToken _ body => account = body.account
  | .revokeToken tokenId => ∃ m, s.tokens.get tokenId = some m ∧ m.account = account

section Acts

variable {env : Env} {now : ℕ} {headers : HeaderMap} {s : GitServer}

theorem exists_auth_of_canWrite {r : GitRepo} {repoId : String} {auth : Option String}
    (h : canWrite s.chain r repoId auth = true) : ∃ account, auth = some account := by
  cases auth with
  | none => cases h
  | some account => exact ⟨account, rfl⟩

/-- An endpoint that succeeds was permitted to its account. -/
theorem permits_of_ok {call : WriteCall} {account : String} {r : Reply × GitServer}
    (h : call.endpoint env account s = .ok r) : Permits s account call := by
  cases call with
  | createRepo owner body => exact (require_bind_eq_ok.1 h).1
  | deleteRepo owner repo => exact (require_bind_eq_ok.1 h).1
  | updateRepo owner repo body => exact (require_bind_eq_ok.1 h).1
  | createIssue owner repo body => exact (require_bind_eq_ok.1 h).1
  | updateIssue owner repo number body =>
    obtain ⟨m, hm, h⟩ := orReject_bind_eq_ok.1 h
    exact ⟨m, hm, (require_bind_eq_ok.1 h).1⟩
  | createHook owner repo hookId body => exact (require_bind_eq_ok.1 h).1
  | deleteHook owner repo hookId => exact (require_bind_eq_ok.1 h).1
  | createToken raw body => exact (require_bind_eq_ok.1 h).1
  | revokeToken tokenId =>
    obtain ⟨m, hm, h⟩ := orReject_bind_eq_ok.1 h
    exact ⟨m, hm, (require_bind_eq_ok.1 h).1⟩

/-- What a write endpoint changes, it changes for an account it acts as. -/
theorem acts_of_write {call : WriteCall} (h : (handleWrite env now headers call s).2 ≠ s) :
    ∃ account, ActsAs env now headers s (.write call) account ∧ Permits s account call := by
  unfold handleWrite at h
  cases hauth : requireAuth env now headers s with
  | error f =>
    rw [hauth] at h
    exact absurd rfl h
  | ok account =>
    rw [hauth] at h
    dsimp only at h
    cases hcall : call.endpoint env account s with
    | error f =>
      rw [hcall] at h
      exact absurd rfl h
    | ok r => exact ⟨account, hauth, permits_of_ok hcall⟩

/-- What a push changes, it changes for an account it acts as. -/
theorem acts_of_push {owner repo : String} {push : Push}
    (h : (gitReceivePack env now s.chain owner repo push (gitAuth headers)).2 ≠ s.chain) :
    ∃ account, ActsAs env now headers s (.receivePack owner repo push) account := by
  unfold gitReceivePack at h
  cases hrepo : findRepo s.chain owner repo with
  | none =>
    rw [hrepo] at h
    exact absurd rfl h
  | some found =>
    obtain ⟨repoId, r⟩ := found
    rw [hrepo] at h
    dsimp only at h
    by_cases hwrite : canWrite s.chain r repoId (gitAuth headers) = true
    · obtain ⟨account, hauth⟩ := exists_auth_of_canWrite hwrite
      rw [hauth] at hwrite
      exact ⟨account, hauth, repoId, r, hrepo, .inl rfl, hwrite⟩
    · rw [if_neg hwrite] at h
      exact absurd rfl h

/-- What a fetch is handed is public, or handed to an account it acts as. -/
theorem acts_of_read {objects : String → Bytes} {owner repo : String} {pack : Bytes}
    (h : uploadPack objects s.chain owner repo (gitAuth headers) = .pack pack) :
    (∃ repoId r, findRepo s.chain owner repo = some (repoId, r) ∧ r.visibility = "public") ∨
      ∃ account, ActsAs env now headers s (.uploadPack owner repo) account := by
  unfold uploadPack at h
  cases hrepo : findRepo s.chain owner repo with
  | none =>
    rw [hrepo] at h
    cases h
  | some found =>
    obtain ⟨repoId, r⟩ := found
    rw [hrepo] at h
    dsimp only at h
    by_cases hread : canRead s.chain r repoId (gitAuth headers) = true
    · by_cases hpublic : r.visibility = "public"
      · exact .inl ⟨repoId, r, rfl, hpublic⟩
      · have hwrite : canWrite s.chain r repoId (gitAuth headers) = true := by
          unfold canRead at hread
          rwa [decide_eq_false hpublic, Bool.false_or] at hread
        obtain ⟨account, hauth⟩ := exists_auth_of_canWrite hwrite
        rw [hauth] at hwrite
        exact .inr ⟨account, hauth, repoId, r, hrepo, .inr hpublic, hwrite⟩
    · rw [if_neg hread] at h
      cases h

end Acts

/-! ## When the account has signed -/

/-- A REST request carries a signature or names nobody known; a git request names nobody with
rights, or would pass `require_auth` with a signature. -/
def Guarded (env : Env) (now : ℕ) (headers : HeaderMap) (s : GitServer) (req : Request) : Prop :=
  match req.target with
  | none => (headers.text "x-hone-signature").isSome = true ∨
      ∀ account, reqAccount headers = some account → ¬ Known s account
  | some (owner, repo, push) => ∀ account, gitAuth headers = some account →
      HasRight s owner repo push account →
        (headers.text "x-hone-signature").isSome = true ∧
          requireAuth env now headers s = .ok account

/-- A request acts as nobody who has not signed exactly when it is guarded. -/
theorem signed_iff (env : Env) (now : ℕ) (headers : HeaderMap) (s : GitServer) (req : Request) :
    (∀ account, ActsAs env now headers s req account → Established env now headers s account) ↔
      Guarded env now headers s req := by
  unfold ActsAs Guarded
  cases req.target with
  | none =>
    dsimp only
    constructor
    · intro h
      by_cases hsig : (headers.text "x-hone-signature").isSome = true
      · exact .inl hsig
      · right
        intro account hreq hknown
        -- without a signature whoever is known is let through
        have hok : requireAuth env now headers s = .ok account :=
          requireAuth_eq_ok_iff.2 (.inl ⟨Option.not_isSome_iff_eq_none.1 hsig, hreq, hknown⟩)
        exact hsig (established_iff_requireAuth.1 (h account hok)).1
    · rintro (hsig | hnobody) account hok
      · exact established_iff_requireAuth.2 ⟨hsig, hok⟩
      · rcases requireAuth_eq_ok_iff.1 hok with ⟨-, hreq, hknown⟩ | h
        · exact absurd hknown (hnobody account hreq)
        · exact h
  | some target =>
    obtain ⟨owner, repo, push⟩ := target
    constructor
    · exact fun h account hauth hright => established_iff_requireAuth.1 (h account ⟨hauth, hright⟩)
    · rintro h account ⟨hauth, hright⟩
      exact established_iff_requireAuth.2 (h account hauth hright)

/-! ### Two requests without a signature -/

section Samples

/-- `alice` has a posting key and a private repository. -/
def aliceServer : GitServer where
  chain :=
    let keys := Kv.empty.put "posting"
      "ea4a6c63e29c520abef5507b132ec5f9954776aebebe7b92421eea691446d22c"
    let alice : Account := { accountId := "alice", createdEpoch := 0, keys := keys }
    ((({} : Chain).setAccount "alice" alice).stateSet .linkGitByName "alice:code" "repo-1").stateSet
      .linkGitRepo "repo-1" ⟨"repo-1", "alice", "code", "private", none, ∅, 0⟩

def restHeaders : HeaderMap := [("x-hone-account", Text.bytes "alice")]

def gitHeaders : HeaderMap := [("authorization", Text.bytes "account alice")]

def mainUpdate : Push where
  updates := [("0000000000000000000000000000000000000000",
    "89e6c98d92887913cadf06b2adb97f26cde4849b", "refs/heads/main")]
  packError := none

end Samples

/-- Nobody has signed, and still a repository is created as `alice` and a branch of her private
one is moved. -/
theorem unsigned_write :
    (∀ account, ¬ Established Env.bare 0 restHeaders aliceServer account) ∧
      (∀ account, ¬ Established Env.bare 0 gitHeaders aliceServer account) ∧
      requireAuth Env.bare 0 restHeaders aliceServer = .ok "alice" ∧
      ((handleWrite Env.bare 0 restHeaders (.createRepo "alice" { name := "new" })
        aliceServer).2.repos.get "alice/new").isSome = true ∧
      ((gitReceivePack Env.bare 0 aliceServer.chain "alice" "code" mainUpdate
        (gitAuth gitHeaders)).2.stateGet .linkGitRepo "repo-1").bind
          (fun r => r.refs.get "refs/heads/main") =
        some "89e6c98d92887913cadf06b2adb97f26cde4849b" := by
  refine ⟨?_, ?_, rfl, by decide, by decide⟩
  · rintro account ⟨-, sigHex, -, -, -, -, -, hsig, -⟩
    cases hsig
  · rintro account ⟨-, sigHex, -, -, -, -, -, hsig, -⟩
    cases hsig

end HoneNode.LinkGit
