import HoneNode.Apply.Voting
import HoneNode.Lib.Median
import HoneNode.Lib.Trace

/-!
# Oracle — the price of a feed and the standing of its reporters

The price is the median of the reports that the finalizer opens, so it is where
more than half of those are, and a finalizer who leaves out the others moves it.
The deviation of a report is worked out in 64 bits: a report far enough from the
median comes around and is taken for a close one.
-/

namespace HoneNode.Oracle

open Entry Prog Within Trace

/-- What the oracle is called with. -/
inductive OracleOp where
  | create (p : OracleFeedCreate)
  | report (p : OracleReport)
  | finalize (p : OracleFeedFinalize)

/-- The chain after a call, whether it went through or not. -/
def OracleOp.apply (env : Env) (s : Chain) : OracleOp → Chain
  | .create p => ((applyOracleFeedCreate p).run s).2
  | .report p => ((applyOracleReport p).run s).2
  | .finalize p => ((applyOracleFeedFinalize env p).run s).2

/-- The oracle of a chain that starts without feeds. Only its own entries write feeds and
standings. -/
def oracle (env : Env) : Component Chain OracleOp where
  init s := s.state .oracleFeed = Kv.empty ∧ s.state .oracleRep = Kv.empty
  step := OracleOp.apply env
  other s s' :=
    s'.state .oracleFeed = s.state .oracleFeed ∧ s'.state .oracleRep = s.state .oracleRep

/-! ## What a finalization looks at and what it writes -/

/-- The reveals of the finalizer that open a report. -/
def opened (env : Env) (p : OracleFeedFinalize) (feed : OracleFeed) : List OracleReveal :=
  feed.reports.filterMap (opening env p.reveals)

def openedValues (env : Env) (p : OracleFeedFinalize) (feed : OracleFeed) : List ℕ :=
  (opened env p feed).map (·.value)

/-- The record of a reporter, or the one it starts with. -/
def standing (s : Chain) (reporter : String) : ReporterReputation :=
  (s.stateGet .oracleRep reporter).getD ⟨reporter, 100, 0, 0⟩

def penalised (rep : ReporterReputation) : ReporterReputation :=
  { rep with score := max (rep.score - 5) 0, reportsTotal := wrapAdd rep.reportsTotal 1,
             outliers := wrapAdd rep.outliers 1 }

def rewarded (rep : ReporterReputation) : ReporterReputation :=
  { rep with score := min (rep.score + 1) 100, reportsTotal := wrapAdd rep.reportsTotal 1 }

def judged (median value : ℕ) (rep : ReporterReputation) : ReporterReputation :=
  if outlierThresholdBps < deviationBps value median then penalised rep else rewarded rep

/-- The next round of a feed. -/
def nextRound (p : OracleFeedFinalize) (feed : OracleFeed) : OracleFeed :=
  { feed with reportDeadline := wrapAdd p.epoch feed.updateIntervalEpochs, reports := [] }

def priced (p : OracleFeedFinalize) (median : ℕ) (feed : OracleFeed) : OracleFeed :=
  { nextRound p feed with lastPrice := some median, lastUpdatedEpoch := some p.epoch }

def ScoresIn (s : Chain) : Prop :=
  ∀ reporter rep, s.stateGet .oracleRep reporter = some rep → 0 ≤ rep.score ∧ rep.score ≤ 100

/-- Every reporter has one report in a round, and it is still closed. -/
structure InRound (feed : OracleFeed) : Prop where
  distinct : (feed.reports.map (·.reporter)).Nodup
  closed : ∀ c ∈ feed.reports, c.revealValue = none

/-- What holds of the oracle at every moment. -/
structure Sane (s : Chain) : Prop where
  feeds : ∀ id feed, s.stateGet .oracleFeed id = some feed → InRound feed
  scores : ScoresIn s

/-! ## The calls -/

section Calls

variable {env : Env} {s s' : Chain} {feed : OracleFeed} {median value : ℕ} {reporter : String}

variable {p : OracleFeedFinalize} {rep : ReporterReputation}

theorem standing_of_put {t : Chain} (other : String)
    (h : t.state .oracleRep = (s.state .oracleRep).put reporter rep) :
    standing t other = if reporter = other then rep else standing s other := by
  unfold standing Chain.stateGet
  rw [h]
  split
  · next heq => rw [heq, Kv.get_put_self]; rfl
  · next hne => rw [Kv.get_put_of_ne _ _ hne]

theorem ScoresIn.of_put {t : Chain} (hscores : ScoresIn s) (hrep : 0 ≤ rep.score ∧ rep.score ≤ 100)
    (h : t.state .oracleRep = (s.state .oracleRep).put reporter rep) : ScoresIn t := by
  intro other rep' hget
  unfold Chain.stateGet at hget
  rw [h] at hget
  by_cases heq : reporter = other
  · rw [heq, Kv.get_put_self] at hget
    cases hget
    exact hrep
  · rw [Kv.get_put_of_ne _ _ heq] at hget
    exact hscores other rep' hget

theorem ScoresIn.standing (h : ScoresIn s) (reporter : String) :
    0 ≤ (standing s reporter).score ∧ (standing s reporter).score ≤ 100 := by
  unfold Oracle.standing
  cases hget : s.stateGet .oracleRep reporter with
  | none => exact (by decide : (0 : ℤ) ≤ 100 ∧ (100 : ℤ) ≤ 100)
  | some rep => exact h reporter rep hget

theorem judged_score (h : 0 ≤ rep.score ∧ rep.score ≤ 100) :
    0 ≤ (judged median value rep).score ∧ (judged median value rep).score ≤ 100 := by
  obtain ⟨hlow, hhigh⟩ := h
  unfold judged
  split
  · change 0 ≤ max (rep.score - 5) 0 ∧ max (rep.score - 5) 0 ≤ 100
    omega
  · change 0 ≤ min (rep.score + 1) 100 ∧ min (rep.score + 1) 100 ≤ 100
    omega

theorem run_scoreReport (s : Chain) (median : ℕ) (reporter : String) (value : ℕ) :
    ∃ t, (scoreReport median reporter value).run s = (.ok (), t) ∧
      t.state .oracleRep =
        (s.state .oracleRep).put reporter (judged median value (standing s reporter)) := by
  unfold scoreReport judged
  rw [run_stateGet_bind]
  split
  · exact ⟨_, rfl, state_stateSet_self _ _ _ _⟩
  · rw [run_bind_ok (run_ignoreErr _ _), run_stateSet]
    refine ⟨_, rfl, ?_⟩
    have hpaid : ((credit reporter nativeToken reporterRewardHunits : Prog {} Unit).run s).2.state
        .oracleRep = s.state .oracleRep := keeps_credit s
    rw [state_stateSet_self, hpaid]
    rfl

theorem keeps_scoreReport (median : ℕ) (reporter : String) (value : ℕ) {f : Family}
    (hf : f ≠ .oracleRep) :
    Keeps (·.state f) (scoreReport median reporter value) := by
  unfold scoreReport
  refine keeps_stateGet.bind fun found => Keeps.ite (keeps_stateSet hf _ _ _) ?_
  exact keeps_credit.ignoreErr.bind fun _ => keeps_stateSet hf _ _ _

/-- What scoring a list of reports does to the standings. -/
structure ScoredTo (median : ℕ) (commits : List OracleCommit) (s t : Chain) : Prop where
  judged : (commits.map (·.reporter)).Nodup → ∀ c ∈ commits, ∀ v, c.revealValue = some v →
    standing t c.reporter = judged median v (standing s c.reporter)
  others : ∀ r, (∀ c ∈ commits, c.reporter ≠ r) → standing t r = standing s r
  scores : ScoresIn s → ScoresIn t
  feeds : t.state .oracleFeed = s.state .oracleFeed

/-- One after the other: a reporter that comes once is judged by its own report alone. -/
theorem run_scoreReports (median : ℕ) (commits : List OracleCommit) (s : Chain) :
    ∃ t, (scoreReports median commits).run s = (.ok (), t) ∧ ScoredTo median commits s t := by
  induction commits generalizing s with
  | nil => exact ⟨s, rfl, by simp, fun _ _ => rfl, id, rfl⟩
  | cons c rest ih =>
    unfold scoreReports
    cases hval : c.revealValue with
    | none =>
      obtain ⟨t, hrun, ht⟩ := ih s
      refine ⟨t, hrun, ?_, ?_, ht.scores, ht.feeds⟩
      · intro hnodup c' hmem v hv
        rcases List.mem_cons.1 hmem with rfl | hmem
        · rw [hval] at hv
          cases hv
        · exact ht.judged (List.nodup_cons.1 hnodup).2 c' hmem v hv
      · exact fun r hr => ht.others r fun c' hc' => hr c' (List.mem_cons_of_mem _ hc')
    | some value =>
      obtain ⟨u, hscore, hput⟩ := run_scoreReport s median c.reporter value
      obtain ⟨t, hrun, ht⟩ := ih u
      refine ⟨t, (run_bind_ok hscore).trans hrun, ?_, ?_, ?_, ?_⟩
      · intro hnodup c' hmem v hv
        obtain ⟨hnew, hnodup⟩ := List.nodup_cons.1 hnodup
        have hne : ∀ c'' ∈ rest, c''.reporter ≠ c.reporter := by
          intro c'' hc'' heq
          exact hnew (List.mem_map.2 ⟨c'', hc'', heq⟩)
        rcases List.mem_cons.1 hmem with rfl | hmem
        · rw [hval] at hv
          cases hv
          rw [ht.others _ hne, standing_of_put _ hput, if_pos rfl]
        · rw [ht.judged hnodup c' hmem v hv, standing_of_put _ hput, if_neg (hne c' hmem).symm]
      · intro r hr
        rw [ht.others r fun c' hc' => hr c' (List.mem_cons_of_mem _ hc'),
          standing_of_put _ hput, if_neg (hr c List.mem_cons_self)]
      · exact fun hs => ht.scores (hs.of_put (judged_score (hs.standing _)) hput)
      · have hkeep := keeps_scoreReport median c.reporter value
          (show Family.oracleFeed ≠ .oracleRep by decide) s
        rw [hscore] at hkeep
        exact ht.feeds.trans hkeep

theorem reporter_of_opening {reveals : List OracleReveal} {c : OracleCommit} {r : OracleReveal}
    (h : opening env reveals c = some r) : r.reporter = c.reporter := by
  have hfound := (Option.filter_eq_some_iff.1 h).1
  have hreporter := List.find?_some hfound
  exact of_decide_eq_true hreporter

theorem reporter_openCommit (reveals : List OracleReveal) (c : OracleCommit) :
    (openCommit env reveals c).reporter = c.reporter := by
  unfold openCommit
  split <;> rfl

theorem revealValue_openCommit {reveals : List OracleReveal} {c : OracleCommit} {r : OracleReveal}
    (h : opening env reveals c = some r) : (openCommit env reveals c).revealValue = some r.value := by
  unfold openCommit
  rw [h]

theorem openedValues_eq (env : Env) (p : OracleFeedFinalize) (feed : OracleFeed) :
    (feed.reports.filterMap fun c => (opening env p.reveals c).map (·.value)) =
      openedValues env p feed := by
  unfold openedValues opened
  rw [List.map_filterMap]

/-- The median of what a finalization opens. -/
def medianOf (env : Env) (p : OracleFeedFinalize) (feed : OracleFeed) : ℕ :=
  Median.median 0 (openedValues env p feed)

/-- The checks of a finalization. -/
structure AcceptsFinalize (p : OracleFeedFinalize) (s : Chain) (feed : OracleFeed) :
    Prop where
  found : s.stateGet .oracleFeed p.feedId = some feed
  due : feed.reportDeadline ≤ p.epoch
  enough : minReports ≤ feed.reports.length

/-- With enough reports opened the reporters are scored and the median is recorded. -/
theorem run_finalize_priced (h : AcceptsFinalize p s feed)
    (hopened : minReports ≤ (openedValues env p feed).length) :
    ∃ t, ScoredTo (medianOf env p feed) (feed.reports.map (openCommit env p.reveals)) s t ∧
      (applyOracleFeedFinalize env p).run s =
        (.ok (), (t.stateSet .oracleFeed p.feedId (priced p (medianOf env p feed) feed)).stateSet
          .oraclePrice feed.assetPair ⟨medianOf env p feed, p.epoch, p.feedId⟩) := by
  unfold applyOracleFeedFinalize
  rw [run_stateGet_bind, h.found, run_bind_ok (run_orBail_some _ _ _),
    run_ensure_bind h.due,
    run_ensure_bind h.enough]
  simp only [openedValues_eq, List.length_mergeSort]
  rw [if_neg (Nat.not_lt.2 hopened)]
  obtain ⟨t, hrun, ht⟩ := run_scoreReports (medianOf env p feed)
    (feed.reports.map (openCommit env p.reveals)) s
  refine ⟨t, ht, ?_⟩
  unfold medianOf Median.median at hrun ⊢
  rw [List.length_mergeSort] at hrun ⊢
  rw [run_bind_ok hrun, run_stateSet_bind, run_stateSet]
  rfl

theorem run_finalize_closed (h : AcceptsFinalize p s feed)
    (hopened : (openedValues env p feed).length < minReports) :
    (applyOracleFeedFinalize env p).run s =
      (.ok (), s.stateSet .oracleFeed p.feedId (nextRound p feed)) := by
  unfold applyOracleFeedFinalize
  rw [run_stateGet_bind, h.found, run_bind_ok (run_orBail_some _ _ _),
    run_ensure_bind h.due,
    run_ensure_bind h.enough]
  simp only [openedValues_eq, List.length_mergeSort]
  rw [if_pos hopened, run_stateSet]
  rfl

theorem refused_or_finalize (env : Env) (p : OracleFeedFinalize) (s : Chain) :
    Refused s ((applyOracleFeedFinalize env p).run s) ∨ ∃ feed, AcceptsFinalize p s feed := by
  unfold applyOracleFeedFinalize
  rw [run_stateGet_bind]
  rcases refused_or_orBail _ _ _ with h | ⟨feed, hfound, hrun⟩
  · exact .inl h
  rw [hrun]
  rcases refused_or_ensure (feed.reportDeadline ≤ p.epoch) _ _ with h | ⟨hdue, hrun⟩
  · exact .inl h
  rw [hrun]
  rcases refused_or_ensure (minReports ≤ feed.reports.length) _ _ with h | ⟨henough, -⟩
  · exact .inl h
  · exact .inr ⟨feed, hfound, hdue, henough⟩

/-- A finalization that went through met the checks. -/
theorem accepts_of_ok (h : (applyOracleFeedFinalize env p).run s = (.ok (), s'))
    (hfeed : s.stateGet .oracleFeed p.feedId = some feed) : AcceptsFinalize p s feed := by
  rcases refused_or_finalize env p s with ⟨msg, hrefused⟩ | ⟨feed', haccepts⟩
  · rw [hrefused] at h
    cases h
  · have heq : feed' = feed := Option.some.inj (haccepts.found.symm.trans hfeed)
    exact heq ▸ haccepts

end Calls

/-! ## Runs -/

section Runs

variable {env : Env} {s s' t : Chain} {feed : OracleFeed} {P : Chain → OracleOp → Prop}
  {hist : List (Chain × OracleOp)}

theorem feed_of_put {f : OracleFeed} {id key : String}
    (h : t.state .oracleFeed = (s.state .oracleFeed).put key f)
    (hget : t.stateGet .oracleFeed id = some feed) :
    feed = f ∨ s.stateGet .oracleFeed id = some feed := by
  unfold Chain.stateGet at hget
  rw [h] at hget
  by_cases heq : key = id
  · rw [heq, Kv.get_put_self] at hget
    exact .inl (Option.some.inj hget).symm
  · rw [Kv.get_put_of_ne _ _ heq] at hget
    exact .inr hget

theorem inRound_nil {f : OracleFeed} (h : f.reports = []) : InRound f := by
  constructor <;> simp [h]

/-- A call that leaves the feeds or stores one that is in a round. -/
theorem Sane.of_feeds (hs : Sane s) (hrep : t.state .oracleRep = s.state .oracleRep)
    (hfeeds : t.state .oracleFeed = s.state .oracleFeed ∨ ∃ key f, InRound f ∧
      t.state .oracleFeed = (s.state .oracleFeed).put key f) : Sane t := by
  constructor
  · intro id feed hget
    rcases hfeeds with hsame | ⟨key, f, hround, hput⟩
    · exact hs.feeds id feed (by rwa [stateGet_of_state hsame] at hget)
    · rcases feed_of_put hput hget with rfl | hold
      · exact hround
      · exact hs.feeds id feed hold
  · intro reporter rep hget
    exact hs.scores reporter rep (by rwa [stateGet_of_state hrep] at hget)

theorem Sane.create (hs : Sane s) (p : OracleFeedCreate) :
    Sane ((applyOracleFeedCreate p).run s).2 := by
  refine hs.of_feeds ?_ ?_
  · have hkeeps : Keeps (·.state .oracleRep) (applyOracleFeedCreate p) := by
      unfold applyOracleFeedCreate
      refine keeps_stateGet.bind fun found => keeps_ensure.bind fun _ => ?_
      refine keeps_debit.bind fun _ => keeps_credit.bind fun _ => ?_
      exact keeps_stateSet (by decide) _ _ _
    exact hkeeps s
  · unfold applyOracleFeedCreate
    rw [run_stateGet_bind]
    rcases refused_or_ensure (s.stateGet .oracleFeed p.feedId).isNone _ _ with ⟨msg, h⟩ | ⟨-, hrun⟩
    · exact .inl (by rw [h])
    rw [hrun]
    rcases refused_or_debit p.creator nativeToken feedCreationFeeHunits _ _ with
      ⟨msg, h⟩ | ⟨-, hrun⟩
    · exact .inl (by rw [h])
    rw [hrun]
    by_cases hfit : (s.debited p.creator nativeToken feedCreationFeeHunits).getBalance recycleFund
        nativeToken + feedCreationFeeHunits < 2 ^ 64
    · rw [run_bind_ok (by rw [run_credit, if_pos hfit]), run_stateSet]
      refine .inr ⟨p.feedId, _, ?_, state_stateSet_self _ _ _ _⟩
      exact inRound_nil rfl
    · rw [run_bind_error (by rw [run_credit, if_neg hfit])]
      exact .inl rfl

theorem InRound.report (h : InRound feed) {p : OracleReport}
    (hnew : ∀ r ∈ feed.reports, r.reporter ≠ p.reporter) :
    InRound { feed with
      reports := feed.reports ++ [⟨p.reporter, p.commitHash, none, none, p.epoch⟩] } := by
  constructor
  · rw [List.map_append, List.nodup_append]
    refine ⟨h.distinct, List.nodup_singleton _, ?_⟩
    intro a ha b hb heq
    obtain ⟨r, hr, rfl⟩ := List.mem_map.1 ha
    cases List.mem_singleton.1 hb
    exact hnew r hr heq
  · intro c hc
    rcases List.mem_append.1 hc with hc | hc
    · exact h.closed c hc
    · cases List.mem_singleton.1 hc
      rfl

theorem Sane.report (hs : Sane s) (p : OracleReport) :
    Sane ((applyOracleReport p).run s).2 := by
  refine hs.of_feeds ?_ ?_
  · have hkeeps : Keeps (·.state .oracleRep) (applyOracleReport p) := by
      unfold applyOracleReport
      refine keeps_stateGet.bind fun found => keeps_orBail.bind fun feed => ?_
      refine keeps_ensure.bind fun _ => keeps_ensure.bind fun _ => ?_
      exact keeps_ensure.bind fun _ => keeps_stateSet (by decide) _ _ _
    exact hkeeps s
  · unfold applyOracleReport
    rw [run_stateGet_bind]
    rcases refused_or_orBail _ _ _ with ⟨msg, h⟩ | ⟨feed, hfeed, hrun⟩
    · exact .inl (by rw [h])
    rw [hrun]
    rcases refused_or_ensure (feed.active = true) _ _ with ⟨msg, h⟩ | ⟨-, hrun⟩
    · exact .inl (by rw [h])
    rw [hrun]
    rcases refused_or_ensure (p.epoch ≤ feed.reportDeadline) _ _ with ⟨msg, h⟩ | ⟨-, hrun⟩
    · exact .inl (by rw [h])
    rw [hrun]
    rcases refused_or_ensure (∀ r ∈ feed.reports, r.reporter ≠ p.reporter) _ _ with
      ⟨msg, h⟩ | ⟨hnew, hrun⟩
    · exact .inl (by rw [h])
    rw [hrun, run_stateSet]
    exact .inr ⟨p.feedId, _, (hs.feeds _ _ hfeed).report hnew, state_stateSet_self _ _ _ _⟩

theorem Sane.finalize (env : Env) (hs : Sane s) (p : OracleFeedFinalize) :
    Sane ((applyOracleFeedFinalize env p).run s).2 := by
  rcases refused_or_finalize env p s with ⟨msg, h⟩ | ⟨feed, haccepts⟩
  · rw [h]
    exact hs
  rcases Nat.lt_or_ge (openedValues env p feed).length minReports with hfew | hopened
  · rw [run_finalize_closed haccepts hfew]
    exact hs.of_feeds (state_stateSet_of_ne _ (by decide) _ _)
      (.inr ⟨p.feedId, _, inRound_nil rfl, state_stateSet_self _ _ _ _⟩)
  · obtain ⟨u, hu, hrun⟩ := run_finalize_priced haccepts hopened
    rw [hrun]
    have hsane : Sane u := by
      constructor
      · exact fun id f hget => hs.feeds id f (by rwa [stateGet_of_state hu.feeds] at hget)
      · exact hu.scores hs.scores
    refine (hsane.of_feeds (state_stateSet_of_ne _ (by decide) _ _)
      (.inr ⟨p.feedId, _, inRound_nil rfl, state_stateSet_self _ _ _ _⟩)).of_feeds
        (state_stateSet_of_ne _ (by decide) _ _) (.inl ?_)
    exact state_stateSet_of_ne _ (by decide) _ _

/-- In every run a round has one closed report of each reporter, and scores stay in their range. -/
theorem sane_run (h : Run (oracle env) P hist s) : Sane s := by
  refine h.invariant (I := Sane) ?_ ?_ ?_
  · rintro s ⟨hfeeds, hreps⟩
    constructor
    · intro id feed hget
      unfold Chain.stateGet at hget
      rw [hfeeds] at hget
      cases hget
    · intro reporter rep hget
      unfold Chain.stateGet at hget
      rw [hreps] at hget
      cases hget
  · intro s op _ hs
    cases op with
    | create p => exact hs.create p
    | report p => exact hs.report p
    | finalize p => exact hs.finalize env p
  · rintro s s' ⟨hfeeds, hreps⟩ hs
    exact hs.of_feeds hreps (.inl hfeeds)

end Runs

/-! ### A round of reports -/

section Rounds

variable {env : Env} {s : Chain} {reveals all : List OracleReveal}

/-- The commit that the reveal opens. -/
def commitHashOf (env : Env) (r : OracleReveal) : String :=
  hexEncode (env.sha256 (leBytes 8 r.value ++ Text.bytes r.nonce
    ++ Text.bytes r.reporter))

def commitOf (env : Env) (r : OracleReveal) : OracleCommit :=
  ⟨r.reporter, commitHashOf env r, none, none, 2⟩

def feedOf (env : Env) (reveals : List OracleReveal) : OracleFeed :=
  ⟨"f", "carl", "HONE/USD", 5, 1, none, none, 6, reveals.map (commitOf env), true⟩

def carlsFeed : OracleFeedCreate :=
  { feedId := "f", creator := "carl", assetPair := "HONE/USD", updateIntervalEpochs := 5,
    epoch := 1, nonce := 1, signedBy := "carl", signature := none }

def reportOf (env : Env) (r : OracleReveal) : OracleReport :=
  { feedId := "f", reporter := r.reporter, commitHash := commitHashOf env r, epoch := 2,
    nonce := 1, signedBy := r.reporter, signature := none }

def finalizeWith (reveals : List OracleReveal) : OracleFeedFinalize :=
  { feedId := "f", finalizer := "carl", reveals := reveals, epoch := 6, nonce := 2,
    signedBy := "carl", signature := none }

def fundedChain : Chain := ({} : Chain).setBalance "carl" nativeToken feedCreationFeeHunits

/-- The feed is created and everybody reports. -/
def roundOf (env : Env) (reveals : List OracleReveal) : List OracleOp :=
  .create carlsFeed :: reveals.map fun r => .report (reportOf env r)

theorem run_report (hfeed : s.stateGet .oracleFeed "f" = some (feedOf env all))
    {r : OracleReveal} (hnew : ∀ r' ∈ all, r'.reporter ≠ r.reporter) :
    (applyOracleReport (reportOf env r)).run s =
      (.ok (), s.stateSet .oracleFeed "f" (feedOf env (all ++ [r]))) := by
  have hfree : ∀ c ∈ (feedOf env all).reports, c.reporter ≠ r.reporter := by
    intro c hc
    obtain ⟨r', hr', rfl⟩ := List.mem_map.1 hc
    exact hnew r' hr'
  unfold applyOracleReport
  rw [run_stateGet_bind]
  change (orBail (s.stateGet .oracleFeed "f") _ >>= _).run s = _
  rw [hfeed, run_bind_ok (run_orBail_some _ _ _), run_bind_ok (by rw [run_ensure]; exact if_pos rfl),
    run_bind_ok (by rw [run_ensure]; exact if_pos (by change 2 ≤ 6; decide)),
    run_bind_ok (by rw [run_ensure]; exact if_pos hfree), run_stateSet]
  unfold feedOf
  rw [List.map_append]
  rfl

theorem stateGet_reports (hfeed : s.stateGet .oracleFeed "f" = some (feedOf env all))
    (hdistinct : ((all ++ reveals).map (·.reporter)).Nodup) :
    ((oracle env).exec s (reveals.map fun r => .report (reportOf env r))).stateGet .oracleFeed "f"
      = some (feedOf env (all ++ reveals)) := by
  induction reveals generalizing s all with
  | nil => rwa [List.append_nil]
  | cons r rest ih =>
    have hnew : ∀ r' ∈ all, r'.reporter ≠ r.reporter := by
      intro r' hr' heq
      rw [List.map_append] at hdistinct
      exact (List.nodup_append.1 hdistinct).2.2 _ (List.mem_map_of_mem hr') _
        (List.mem_cons_self ..) heq
    have happend : all ++ r :: rest = (all ++ [r]) ++ rest := by rw [List.append_assoc]; rfl
    rw [happend] at hdistinct ⊢
    have hstep : (oracle env).step s (.report (reportOf env r)) =
        s.stateSet .oracleFeed "f" (feedOf env (all ++ [r])) :=
      congrArg Prod.snd (run_report hfeed hnew)
    rw [List.map_cons, Component.exec, List.foldl_cons, hstep]
    exact ih (by rw [stateGet_stateSet, if_pos rfl]) hdistinct

theorem stateGet_round (hdistinct : (reveals.map (·.reporter)).Nodup) :
    ((oracle env).exec fundedChain (roundOf env reveals)).stateGet .oracleFeed "f" =
      some (feedOf env reveals) := by
  have hcreate : ((oracle env).step fundedChain (.create carlsFeed)).stateGet .oracleFeed "f" =
      some (feedOf env []) := by rfl
  exact stateGet_reports hcreate hdistinct

theorem run_round (env : Env) (reveals : List OracleReveal) :
    Run (oracle env) (fun _ _ => True) ((oracle env).record fundedChain (roundOf env reveals) [])
      ((oracle env).exec fundedChain (roundOf env reveals)) :=
  Run.exec (.start ⟨rfl, rfl⟩) (legal_true _ _)

/-- Of the reports of a round those are opened whose reveals are there. -/
theorem opened_feedOf (hdistinct : (all.map (·.reporter)).Nodup) (hsub : ∀ r ∈ reveals, r ∈ all) :
    opened env (finalizeWith reveals) (feedOf env all) =
      all.filter fun r => decide (r.reporter ∈ reveals.map (·.reporter)) := by
  have hopening : ∀ r ∈ all, opening env reveals (commitOf env r) =
      if r.reporter ∈ reveals.map (·.reporter) then some r else none := by
    intro r hr
    unfold opening
    cases hfound : reveals.reverse.find? (fun r' => decide (r'.reporter = (commitOf env r).reporter))
        with
    | none =>
      rw [if_neg]
      · rfl
      · intro hmem
        obtain ⟨r', hr', heq⟩ := List.mem_map.1 hmem
        exact List.find?_eq_none.1 hfound r' (List.mem_reverse.2 hr') (decide_eq_true heq)
    | some r' =>
      have hreporter := List.find?_some hfound
      have heq : r'.reporter = r.reporter := of_decide_eq_true hreporter
      have hmem : r' ∈ reveals := List.mem_reverse.1 (List.mem_of_find?_eq_some hfound)
      have hsame : r' = r := List.inj_on_of_nodup_map hdistinct (hsub r' hmem) hr heq
      subst hsame
      rw [if_pos (List.mem_map_of_mem hmem)]
      exact if_pos (decide_eq_true rfl)
  change (all.map (commitOf env)).filterMap (opening env reveals) = _
  rw [List.filterMap_map, ← List.filterMap_eq_filter]
  refine List.filterMap_congr fun r hr => ?_
  change opening env reveals (commitOf env r) = _
  rw [hopening r hr]
  unfold Option.guard
  by_cases hmem : r.reporter ∈ reveals.map (·.reporter)
  · rw [if_pos hmem, if_pos (decide_eq_true hmem)]
  · rw [if_neg hmem, if_neg (by simpa using hmem)]

/-- The digests of the preimages below. -/
def oracleNode : Env :=
  Env.digesting [
    ("d\x00\x00\x00\x00\x00\x00\x00na",
      "8606ac53c41c4f72804ee3bf5579a77b61fabcc10666f6e52d7fad5d2584ea02"),
    ("d\x00\x00\x00\x00\x00\x00\x00nb",
      "45eaeb6fe24da4acdbadfcd9bdd6c1a7e83d941702467a57e0accca67e34d4f7"),
    ("d\x00\x00\x00\x00\x00\x00\x00nc",
      "667412d618a1171d202f1b4ac5c47ffd157eaba742ed2bae89f0d95d4f61f33c"),
    ("d\x00\x00\x00\x00\x00\x00\x00nd",
      "3d2723b82874779340dfeb1db9f5749ad1a6dfc4eff8625ddd72b123f118e0b3"),
    ("x\x00\x00\x00\x00\x00\x00\x00ne",
      "4d1fd24bc1a6469c2e3f4f958721928c53070ec969bb29d1384e8bc820caeb24"),
    ("x\x00\x00\x00\x00\x00\x00\x00nf",
      "f81cffa97c7635fb8b2517ed3837c471065fb374f89f84d0ee6fbbae64918cc7"),
    ("x\x00\x00\x00\x00\x00\x00\x00ng",
      "af5b72bfff717a719945da57399d4b6a14f68d09d8d058a00e7a69c05db0a4f0"),
    ("@\x1c|a2U0\nnc",
      "cbe38ded9a05d505e24d3d10f6e8f377d79db2d497adebd357eeaaf556825c49")]

theorem accepts_round (env : Env) (reveals : List OracleReveal) (h : minReports ≤ reveals.length)
    (hdistinct : (reveals.map (·.reporter)).Nodup) (chosen : List OracleReveal) :
    AcceptsFinalize (finalizeWith chosen) ((oracle env).exec fundedChain (roundOf env reveals))
      (feedOf env reveals) where
  found := stateGet_round hdistinct
  due := Nat.le_refl 6
  enough := h.trans_eq (List.length_map _).symm

theorem ok_finalize {p : OracleFeedFinalize} {feed : OracleFeed}
    (h : AcceptsFinalize p s feed) :
    ∃ s', (applyOracleFeedFinalize env p).run s = (.ok (), s') := by
  rcases Nat.lt_or_ge (openedValues env p feed).length minReports with hfew | hopened
  · exact ⟨_, run_finalize_closed h hfew⟩
  · obtain ⟨t, -, hrun⟩ := run_finalize_priced h hopened
    exact ⟨_, hrun⟩

end Rounds

/-! ## The price -/

section Price

variable {env : Env} {s s' : Chain} {feed : OracleFeed}

/-- The price is recorded where more than half of the opened reports are, whichever reveals the
finalizer has chosen. -/
theorem price_among_majority {p : OracleFeedFinalize} {lo hi : ℕ}
    (hfin : (applyOracleFeedFinalize env p).run s = (.ok (), s'))
    (hfeed : s.stateGet .oracleFeed p.feedId = some feed)
    (hopened : minReports ≤ (opened env p feed).length)
    (hmost : (opened env p feed).length <
      2 * (opened env p feed).countP fun r => decide (lo ≤ r.value ∧ r.value ≤ hi)) :
    ∃ price, lo ≤ price ∧ price ≤ hi ∧
      s'.stateGet .oracleFeed p.feedId = some (priced p price feed) ∧
      s'.stateGet .oraclePrice feed.assetPair = some ⟨price, p.epoch, p.feedId⟩ := by
  have hlength : (openedValues env p feed).length = (opened env p feed).length := List.length_map _
  obtain ⟨t, -, hrun⟩ := run_finalize_priced (accepts_of_ok hfin hfeed)
    (hopened.trans_eq hlength.symm)
  rw [hfin] at hrun
  obtain ⟨-, rfl⟩ := Prod.mk.inj hrun
  have hin : lo ≤ medianOf env p feed ∧ medianOf env p feed ≤ hi := by
    refine Median.median_mem_Icc ?_
    rw [hlength]
    unfold openedValues
    rw [List.countP_map]
    exact hmost
  refine ⟨medianOf env p feed, hin.1, hin.2, ?_, ?_⟩
  · rw [stateGet_stateSet_of_ne _ (by decide), stateGet_stateSet, if_pos rfl]
  · rw [stateGet_stateSet, if_pos rfl]

def honestReveals : List OracleReveal :=
  [⟨"a", 100, "n"⟩, ⟨"b", 100, "n"⟩, ⟨"c", 100, "n"⟩, ⟨"d", 100, "n"⟩]

def lateReveals : List OracleReveal := [⟨"e", 120, "n"⟩, ⟨"f", 120, "n"⟩, ⟨"g", 120, "n"⟩]

/-- Four of the seven reports of the round are honest. -/
def sevenReveals : List OracleReveal := honestReveals ++ lateReveals

def sevenChain : Chain := (oracle oracleNode).exec fundedChain (roundOf oracleNode sevenReveals)

theorem opened_honest : opened oracleNode (finalizeWith honestReveals)
    (feedOf oracleNode sevenReveals) = honestReveals :=
  (opened_feedOf (by decide) fun _ => List.mem_append_left _).trans (by rfl)

theorem price_among_majority_seven :
    ∃ s' price, (applyOracleFeedFinalize oracleNode (finalizeWith honestReveals)).run sevenChain =
        (.ok (), s') ∧ 90 ≤ price ∧ price ≤ 110 ∧
      s'.stateGet .oraclePrice "HONE/USD" = some ⟨price, 6, "f"⟩ := by
  have haccepts := accepts_round oracleNode sevenReveals (by decide)
    (by decide) honestReveals
  obtain ⟨s', hfin⟩ := ok_finalize haccepts
  have hmost : (opened oracleNode (finalizeWith honestReveals) (feedOf oracleNode sevenReveals)).length
      < 2 * (opened oracleNode (finalizeWith honestReveals) (feedOf oracleNode sevenReveals)).countP
        fun r => decide (90 ≤ r.value ∧ r.value ≤ 110) := by
    rw [opened_honest]
    decide
  obtain ⟨price, hlo, hhi, -, hprice⟩ := price_among_majority hfin
    haccepts.found (by rw [opened_honest]; decide) hmost
  exact ⟨s', price, hfin, hlo, hhi, hprice⟩

/-- The finalizer has the preimages of four honest reports out of seven and opens the three
others: their price is recorded. -/
theorem minority_sets_price :
    (∃ hist, Run (oracle oracleNode) (fun _ _ => True) hist sevenChain) ∧
    sevenChain.stateGet .oracleFeed "f" = some (feedOf oracleNode sevenReveals) ∧
    (feedOf oracleNode sevenReveals).reports.length <
      2 * (opened oracleNode (finalizeWith honestReveals) (feedOf oracleNode sevenReveals)).countP
        (fun r => decide (90 ≤ r.value ∧ r.value ≤ 110)) ∧
    opened oracleNode (finalizeWith lateReveals) (feedOf oracleNode sevenReveals) = lateReveals ∧
    ∃ s', (applyOracleFeedFinalize oracleNode (finalizeWith lateReveals)).run sevenChain =
        (.ok (), s') ∧
      s'.stateGet .oraclePrice "HONE/USD" = some ⟨120, 6, "f"⟩ := by
  have haccepts := accepts_round oracleNode sevenReveals (by decide)
    (by decide) lateReveals
  have hopened : opened oracleNode (finalizeWith lateReveals) (feedOf oracleNode sevenReveals) =
      lateReveals :=
    (opened_feedOf (by decide) fun _ => List.mem_append_right _).trans (by rfl)
  have hvalues : openedValues oracleNode (finalizeWith lateReveals)
      (feedOf oracleNode sevenReveals) = [120, 120, 120] := by
    unfold openedValues
    rw [hopened]
    rfl
  refine ⟨⟨_, run_round _ _⟩, haccepts.found, ?_, hopened, ?_⟩
  · rw [opened_honest]
    decide
  · obtain ⟨t, -, hrun⟩ := run_finalize_priced haccepts (by rw [hvalues]; decide)
    refine ⟨_, hrun, ?_⟩
    have hmedian : medianOf oracleNode (finalizeWith lateReveals)
        (feedOf oracleNode sevenReveals) = 120 := by
      have hmem := Median.median_mem (d := 0) (l := [120, 120, 120]) (by decide)
      unfold medianOf
      rw [hvalues]
      simpa using hmem
    rw [hmedian]
    exact (stateGet_stateSet _ _ _ _ _).trans (if_pos rfl)

end Price

/-! ## Outliers -/

def distance (value median : ℕ) : ℕ := if median < value then value - median else median - value

/-- More than the threshold away from the median, in exact integers. -/
def IsOutlier (value median : ℕ) : Prop :=
  outlierThresholdBps < distance value median * 10000 / max median 1

/-- The scaled distance is over the threshold, and its low 64 bits are not. -/
def ComesAround (value median : ℕ) : Prop :=
  distance value median * 10000 % 2 ^ 64 < (outlierThresholdBps + 1) * max median 1 ∧
    (outlierThresholdBps + 1) * max median 1 ≤ distance value median * 10000

/-- The finalization has counted an outlier against the reporter. -/
def Penalised (s s' : Chain) (reporter : String) : Prop :=
  standing s' reporter = penalised (standing s reporter)

section Outliers

variable {env : Env} {s s' : Chain} {feed : OracleFeed} {P : Chain → OracleOp → Prop}
  {hist : List (Chain × OracleOp)}

theorem isOutlier_iff {value median : ℕ} : IsOutlier value median ↔
    (outlierThresholdBps + 1) * max median 1 ≤ distance value median * 10000 :=
  Nat.le_div_iff_mul_le (lt_max_of_lt_right Nat.one_pos)

/-- What the code takes for an outlier is one, and the ones it misses come around. -/
theorem lt_deviationBps_iff {value median : ℕ} : outlierThresholdBps < deviationBps value median ↔
    IsOutlier value median ∧ ¬ ComesAround value median := by
  have hcode : outlierThresholdBps < deviationBps value median ↔
      (outlierThresholdBps + 1) * max median 1 ≤ distance value median * 10000 % 2 ^ 64 :=
    Nat.le_div_iff_mul_le (lt_max_of_lt_right Nat.one_pos)
  have hle : distance value median * 10000 % 2 ^ 64 ≤ distance value median * 10000 :=
    Nat.mod_le _ _
  rw [hcode, isOutlier_iff]
  unfold ComesAround
  omega

theorem penalised_ne_rewarded (rep : ReporterReputation) : penalised rep ≠ rewarded rep := by
  intro heq
  have hcount : (rep.outliers + 1) % 2 ^ 64 = rep.outliers :=
    congrArg ReporterReputation.outliers heq
  omega

/-- A reporter whose report was opened is judged by the value it is opened to. -/
theorem standing_finalize {p : OracleFeedFinalize} (hround : InRound feed)
    (hfin : (applyOracleFeedFinalize env p).run s = (.ok (), s'))
    (hfeed : s.stateGet .oracleFeed p.feedId = some feed)
    (hopened : minReports ≤ (opened env p feed).length) {c : OracleCommit} (hc : c ∈ feed.reports)
    {r : OracleReveal} (hr : opening env p.reveals c = some r) :
    standing s' c.reporter = judged (medianOf env p feed) r.value (standing s c.reporter) := by
  obtain ⟨t, ht, hrun⟩ := run_finalize_priced (accepts_of_ok hfin hfeed)
    (hopened.trans_eq (List.length_map _).symm)
  rw [hfin] at hrun
  obtain ⟨-, rfl⟩ := Prod.mk.inj hrun
  have hnodup : ((feed.reports.map (openCommit env p.reveals)).map (·.reporter)).Nodup := by
    rw [List.map_map]
    have hsame : ((·.reporter) ∘ openCommit env p.reveals : OracleCommit → String) =
        (·.reporter) := funext (reporter_openCommit p.reveals)
    rw [hsame]
    exact hround.distinct
  have hjudged := ht.judged hnodup _ (List.mem_map_of_mem hc) _ (revealValue_openCommit hr)
  rw [reporter_openCommit] at hjudged
  exact hjudged

/-- After any run a finalization that scores takes exactly the outliers for outliers, if and only
if no opened value comes around; and scores stay in their range. -/
theorem outliers_exact_iff {p : OracleFeedFinalize} (h : Run (oracle env) P hist s)
    (hfin : (applyOracleFeedFinalize env p).run s = (.ok (), s'))
    (hfeed : s.stateGet .oracleFeed p.feedId = some feed)
    (hopened : minReports ≤ (opened env p feed).length) :
    ((∀ c ∈ feed.reports, ∀ r, opening env p.reveals c = some r →
        (Penalised s s' c.reporter ↔ IsOutlier r.value (medianOf env p feed))) ∧ ScoresIn s') ↔
      ∀ r ∈ opened env p feed, ¬ ComesAround r.value (medianOf env p feed) := by
  have hround := (sane_run h).feeds _ _ hfeed
  have hscores : ScoresIn s' := by
    have hsane := (sane_run h).finalize env p
    rw [hfin] at hsane
    exact hsane.scores
  have hpenalised : ∀ c ∈ feed.reports, ∀ r, opening env p.reveals c = some r →
      (Penalised s s' c.reporter ↔ IsOutlier r.value (medianOf env p feed) ∧
        ¬ ComesAround r.value (medianOf env p feed)) := by
    intro c hc r hr
    rw [← lt_deviationBps_iff]
    unfold Penalised
    rw [standing_finalize hround hfin hfeed hopened hc hr]
    unfold judged
    split
    · next hout => exact iff_of_true rfl hout
    · next hout => exact iff_of_false (fun heq => penalised_ne_rewarded _ heq.symm) hout
  constructor
  · rintro ⟨hexact, -⟩ r hr hround
    obtain ⟨c, hc, hopens⟩ := List.mem_filterMap.1 hr
    have hout : IsOutlier r.value (medianOf env p feed) := isOutlier_iff.2 hround.2
    exact ((hpenalised c hc r hopens).1 ((hexact c hc r hopens).2 hout)).2 hround
  · intro hclear
    refine ⟨fun c hc r hr => ?_, hscores⟩
    rw [hpenalised c hc r hr]
    exact and_iff_left (hclear r (List.mem_filterMap.2 ⟨c, hc, hr⟩))

theorem medianOf_honest : medianOf oracleNode (finalizeWith honestReveals)
    (feedOf oracleNode sevenReveals) = 100 := by
  unfold medianOf openedValues
  rw [opened_honest]
  have hmem := Median.median_mem (d := 0) (l := [100, 100, 100, 100]) (by decide)
  have hmedian : Median.median 0 [100, 100, 100, 100] = 100 := by simpa using hmem
  exact hmedian

theorem outliers_exact_iff_seven :
    ∃ s', (applyOracleFeedFinalize oracleNode (finalizeWith honestReveals)).run sevenChain =
        (.ok (), s') ∧ ScoresIn s' ∧ (Penalised sevenChain s' "a" ↔ IsOutlier 100 100) := by
  have haccepts := accepts_round oracleNode sevenReveals (by decide)
    (by decide) honestReveals
  obtain ⟨s', hfin⟩ := ok_finalize haccepts
  have hiff := outliers_exact_iff (run_round oracleNode sevenReveals) hfin haccepts.found
    (by rw [opened_honest]; decide)
  rw [opened_honest, medianOf_honest] at hiff
  obtain ⟨hexact, hscores⟩ := hiff.2 (by unfold ComesAround; decide)
  have hmem : (⟨"a", 100, "n"⟩ : OracleReveal) ∈ opened oracleNode (finalizeWith honestReveals)
      (feedOf oracleNode sevenReveals) := by
    rw [opened_honest]
    exact List.mem_cons_self
  refine ⟨s', hfin, hscores, ?_⟩
  obtain ⟨c, hc, hopens⟩ := List.mem_filterMap.1 hmem
  have hreporter : c.reporter = "a" := (reporter_of_opening hopens).symm
  have hjudged := hexact c hc _ hopens
  rw [hreporter] at hjudged
  exact hjudged

/-- Two reports of 100 and one far away. -/
def farReveals : List OracleReveal :=
  [⟨"a", 100, "n"⟩, ⟨"b", 100, "n"⟩, ⟨"c", 734180414133640256, "n"⟩]

def farChain : Chain := (oracle oracleNode).exec fundedChain (roundOf oracleNode farReveals)

/-- The scaled distance of the third report is 16832 above a multiple of 2^64, so its reporter is
rewarded. -/
theorem outlier_rewarded :
    (∃ hist, Run (oracle oracleNode) (fun _ _ => True) hist farChain) ∧
    farChain.stateGet .oracleFeed "f" = some (feedOf oracleNode farReveals) ∧
    opened oracleNode (finalizeWith farReveals) (feedOf oracleNode farReveals) = farReveals ∧
    medianOf oracleNode (finalizeWith farReveals) (feedOf oracleNode farReveals) = 100 ∧
    IsOutlier 734180414133640256 100 ∧
    ∃ s', (applyOracleFeedFinalize oracleNode (finalizeWith farReveals)).run farChain =
        (.ok (), s') ∧
      standing s' "c" = rewarded (standing farChain "c") := by
  have haccepts := accepts_round oracleNode farReveals (by decide)
    (by decide) farReveals
  have hopened : opened oracleNode (finalizeWith farReveals) (feedOf oracleNode farReveals) =
      farReveals := (opened_feedOf (by decide) fun _ => id).trans (by rfl)
  have hmedian : medianOf oracleNode (finalizeWith farReveals) (feedOf oracleNode farReveals) =
      100 := by
    unfold medianOf openedValues
    rw [hopened]
    have hin : 100 ≤ Median.median 0 [100, 100, 734180414133640256] ∧
        Median.median 0 [100, 100, 734180414133640256] ≤ 100 := Median.median_mem_Icc (by decide)
    exact Nat.le_antisymm hin.2 hin.1
  obtain ⟨s', hfin⟩ := ok_finalize haccepts
  refine ⟨⟨_, run_round _ _⟩, haccepts.found, hopened, hmedian, ?_, s', hfin, ?_⟩
  · unfold IsOutlier
    decide
  · have hmem : (⟨"c", 734180414133640256, "n"⟩ : OracleReveal) ∈
        opened oracleNode (finalizeWith farReveals) (feedOf oracleNode farReveals) := by
      rw [hopened]
      exact List.mem_cons_of_mem _ (List.mem_cons_of_mem _ List.mem_cons_self)
    obtain ⟨c, hc, hopens⟩ := List.mem_filterMap.1 hmem
    have hround := (sane_run (run_round oracleNode farReveals)).feeds _ _ haccepts.found
    have hstanding := standing_finalize hround hfin haccepts.found
      (by rw [hopened]; decide) hc hopens
    rw [hmedian, ← reporter_of_opening hopens] at hstanding
    exact hstanding.trans (if_neg (by decide))

end Outliers

end HoneNode.Oracle
