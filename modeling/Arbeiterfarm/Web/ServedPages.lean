import Arbeiterfarm.Foundation.Fallible
import Arbeiterfarm.Web.Cache

/-!
# The pages that are served

A page from the network has passed all checks of its own request, on every hop. A page from the
cache has passed those of the request that put it there: the addresses it was read from are no
private ones and in no blocked country, but the rules of the project that gets it were only asked
about the requested URL. So the pages of a run are all allowed exactly when the rules also allow
the page behind every cached answer.
-/

namespace Arbeiterfarm.Web

open Foundation Fallible

section

variable {libs : GatewayLibs} {gw : WebGateway} {net : Surroundings}
  {rules : List WebFetchRuleRow}

/-! ### Checked addresses -/

/-- The addresses are neither private nor in a blocked country. -/
structure Reachable (libs : GatewayLibs) (gw : WebGateway) (addrs : List IpAddr) : Prop where
  resolved : addrs ≠ []
  notPrivate : ∀ ip ∈ addrs, isPrivateIp ip = false
  country : ∀ ip ∈ addrs, ∀ geoip, gw.geoip = some geoip → geoip.check libs.toUppercase ip = none

/-- The rules allow the page, and so do the checks of its addresses. -/
structure Allows (libs : GatewayLibs) (gw : WebGateway) (rules : List WebFetchRuleRow)
    (source : Url × List IpAddr) : Prop where
  rules : evaluateRules libs.toTextLibs source.1 source.2 rules = .allowed
  reachable : Reachable libs gw source.2

lemma allows_of_resolveAndValidate {lookupHost : String → ℕ → Except String (List IpAddr)}
    {url : Url} {addrs : List IpAddr}
    (h : resolveAndValidate libs gw lookupHost url rules = .ok addrs) :
    Allows libs gw rules (url, addrs) := by
  rw [resolveAndValidate] at h
  split at h
  · cases h
  · split at h
    · cases h
    · rename_i addrs' _
      split_ifs at h with hempty
      split at h
      · cases h
      · rename_i hprivate
        split at h
        · cases h
        · rename_i hcountry
          split at h
          · cases h
          · rename_i hrules
            obtain rfl := Except.ok.inj h
            refine ⟨hrules, ?_, ?_, ?_⟩
            · intro hnil
              exact hempty (List.isEmpty_iff.mpr hnil)
            · intro ip hip
              exact eq_false_of_ne_true (List.find?_eq_none.mp hprivate ip hip)
            · intro ip hip geoip hgeoip
              have hnone := List.findSome?_eq_none_iff.mp hcountry ip hip
              rw [hgeoip] at hnone
              exact Option.map_eq_none_iff.mp hnone

/-! ### Redirects -/

/-- What the loop returns has been allowed, and it was received from there. -/
lemma fetchLoop_ok {remaining hop : ℕ} {url url' : Url} {addrs addrs' : List IpAddr}
    {resp : HttpResponse} (hallows : Allows libs gw rules (url, addrs))
    (h : fetchLoop libs gw net rules remaining hop url addrs = .ok (url', addrs', resp)) :
    Allows libs gw rules (url', addrs') ∧
      ∃ hop', net.send hop' url'.as_str addrs' = .ok resp := by
  induction remaining generalizing hop url addrs with
  | zero =>
    rw [fetchLoop] at h
    split at h
    · cases h
    · rename_i resp' hsend
      split_ifs at h
      cases h
      exact ⟨hallows, hop, hsend⟩
  | succ remaining ih =>
    rw [fetchLoop] at h
    split at h
    · cases h
    · rename_i resp' hsend
      by_cases hredirect : isRedirection resp'.status = true
      · rw [if_pos hredirect] at h
        simp only at h
        split at h
        · cases h
          exact ⟨hallows, hop, hsend⟩
        · cases h
        · split at h
          · cases h
          · rename_i next_url hjoin
            obtain ⟨-, -, h⟩ := bind_eq_ok.mp h
            obtain ⟨-, -, h⟩ := bind_eq_ok.mp h
            obtain ⟨redir_addrs, haddrs, h⟩ := bind_eq_ok.mp h
            exact ih (allows_of_resolveAndValidate haddrs) h
      · rw [if_neg hredirect] at h
        cases h
        exact ⟨hallows, hop, hsend⟩

/-- A page from the network is allowed by the rules of the request. -/
lemma allows_of_fetchNetwork {parsed : Url} {f : Fetched}
    (h : fetchNetwork libs gw net rules parsed = .ok f) :
    Allows libs gw rules (f.url, f.addrs) := by
  obtain ⟨addrs, haddrs, h⟩ := bind_eq_ok.mp h
  obtain ⟨-, -, h⟩ := bind_eq_ok.mp h
  obtain ⟨⟨url, addrs', resp⟩, hloop, h⟩ := bind_eq_ok.mp h
  obtain ⟨⟨body_bytes, truncated⟩, -, h⟩ := bind_eq_ok.mp h
  obtain rfl := pure_eq_ok.mp h
  exact (fetchLoop_ok (allows_of_resolveAndValidate haddrs) hloop).1

lemma handleFetch_cached {s : WebState} {req : GatewayRequest} {row : CacheRow}
    (h : handleFetch libs gw s req net = .cached row) :
    ∃ parsed, checkRequest libs net req (s.rulesOf libs req) = .ok parsed ∧
      s.cacheHit libs net parsed = some row := by
  rw [handleFetch] at h
  split at h
  · cases h
  · rename_i parsed hcheck
    split at h
    · rename_i row' hrow
      cases h
      exact ⟨parsed, hcheck, hrow⟩
    · split at h <;> cases h

lemma handleFetch_fetched {s : WebState} {req : GatewayRequest} {url_hash : String} {f : Fetched}
    (h : handleFetch libs gw s req net = .fetched url_hash f) :
    Allows libs gw (s.rulesOf libs req) (f.url, f.addrs) := by
  rw [handleFetch] at h
  split at h
  · cases h
  · split at h
    · cases h
    · split at h
      · cases h
      · rename_i fetched hfetched
        cases h
        exact allows_of_fetchNetwork hfetched

/-- A row that answers a request is a row of the cache. -/
lemma cache_of_cacheHit {s : WebState} {parsed : Url} {row : CacheRow}
    (h : s.cacheHit libs net parsed = some row) : ∃ url_hash, s.cache url_hash = some row := by
  rw [WebState.cacheHit] at h
  split_ifs at h
  exact ⟨_, (Option.filter_eq_some_iff.mp (Option.filter_eq_some_iff.mp h).1).1⟩

end

/-! ### The invariant -/

section

variable {libs : GatewayLibs} {gw : WebGateway} {s t : WebState} {a : WebAction}

/-- What waits to be stored is allowed by the rules of its request, and the cached pages were read
from addresses that are neither private nor in a blocked country. -/
structure WebInv (libs : GatewayLibs) (gw : WebGateway) (s : WebState) : Prop where
  tasks : ∀ task x, s.tasks task = some x →
    Allows libs gw x.rules (x.fetched.url, x.fetched.addrs)
  cache : ∀ url_hash row, s.cache url_hash = some row → Reachable libs gw row.source.2

lemma webInv_init : WebInv libs gw .init := by
  refine ⟨?_, ?_⟩
  all_goals
    intro _ _ h
    cases h

/-- A row after a step was there before, or has just been stored. -/
lemma WebRule.cache {url_hash : String} {row : CacheRow} (h : WebRule libs gw s a t)
    (hrow : t.cache url_hash = some row) :
    s.cache url_hash = some row ∨ ∃ task x, s.tasks task = some x ∧
      row.source = (x.fetched.url, x.fetched.addrs) := by
  cases h with
  | quiet | refused | cached | fetched => exact .inl hrow
  | purge => exact .inl (Option.filter_eq_some_iff.mp hrow).1
  | store task x written htask =>
    simp only [storeResponse] at hrow
    split_ifs at hrow
    · rw [cachePut_apply] at hrow
      split_ifs at hrow with heq
      · obtain rfl := Option.some.inj hrow
        exact .inr ⟨task, x, htask, rfl⟩
      · exact .inl hrow
    · exact .inl hrow

/-- A request that waits after a step waited before, or has just been fetched. -/
lemma WebRule.tasks {task : TaskId} {x : InFlight} (h : WebRule libs gw s a t)
    (hx : t.tasks task = some x) :
    s.tasks task = some x ∨ ∃ req net, a = .fetch task req net ∧ x.rules = s.rulesOf libs req ∧
      Allows libs gw x.rules (x.fetched.url, x.fetched.addrs) := by
  cases h with
  | quiet | purge | refused | cached => exact .inl hx
  | fetched task' req net url_hash fetched hfetch =>
    simp only [Function.update_apply] at hx
    split_ifs at hx with heq
    · obtain rfl := Option.some.inj hx
      exact .inr ⟨req, net, by rw [heq], rfl, handleFetch_fetched hfetch⟩
    · exact .inl hx
  | store task' x' written htask =>
    simp only [storeResponse, Function.update_apply] at hx
    split_ifs at hx
    exact .inl hx

lemma webInv_step (hs : WebInv libs gw s) (h : s.step libs gw a = some t) :
    WebInv libs gw t := by
  have hrule := WebRule.of_step h
  refine ⟨?_, ?_⟩
  · intro task x hx
    rcases hrule.tasks hx with hx | ⟨-, -, -, -, hallows⟩
    · exact hs.tasks task x hx
    · exact hallows
  · intro url_hash row hrow
    rcases hrule.cache hrow with hrow | ⟨task, x, hx, hsource⟩
    · exact hs.cache url_hash row hrow
    · rw [hsource]
      exact (hs.tasks task x hx).reachable

/-! ### Pages from the cache -/

/-- All pages that have been handed out are allowed by the rules of the project that got them. -/
def ServedAllowed (libs : GatewayLibs) (gw : WebGateway) (s : WebState) : Prop :=
  ∀ page ∈ s.served, Allows libs gw page.rules page.source

lemma servedAllowed_append {page : Served} (h : t.served = s.served ++ [page]) :
    ServedAllowed libs gw t ↔
      ServedAllowed libs gw s ∧ Allows libs gw page.rules page.source := by
  rw [ServedAllowed, h, List.forall_mem_append, List.forall_mem_singleton]
  exact Iff.rfl

/-- When the cache answers a request, the rules of the project allow the page behind the answer
with the addresses it was read from. -/
def HitAllowed (libs : GatewayLibs) (s : WebState) : WebAction → Prop
  | .fetch _ req net => ∀ parsed, checkRequest libs net req (s.rulesOf libs req) = .ok parsed →
    ∀ row, s.cacheHit libs net parsed = some row →
      evaluateRules libs.toTextLibs row.source.1 row.source.2 (s.rulesOf libs req) = .allowed
  | _ => True

instance (s : WebState) (a : WebAction) : Decidable (HitAllowed libs s a) :=
  match a with
  | .fetch _ req net =>
    match hcheck : checkRequest libs net req (s.rulesOf libs req) with
    | .error _ => isTrue fun _ h => nomatch hcheck.symm.trans h
    | .ok parsed =>
      match hrow : s.cacheHit libs net parsed with
      | none => isTrue fun _ h _ h' => by
        obtain rfl := Except.ok.inj (hcheck.symm.trans h)
        exact nomatch hrow.symm.trans h'
      | some row =>
        decidable_of_iff
          (evaluateRules libs.toTextLibs row.source.1 row.source.2 (s.rulesOf libs req) = .allowed)
          ⟨fun hallowed _ h _ h' => by
            obtain rfl := Except.ok.inj (hcheck.symm.trans h)
            obtain rfl := Option.some.inj (hrow.symm.trans h')
            exact hallowed,
          fun hhit => hhit parsed hcheck row hrow⟩
  | .clock _ | .addRule _ | .removeRule _ | .purge | .store _ _ => isTrue trivial

/-- A request that the cache does not answer meets the condition. -/
lemma hitAllowed_of_not_cached (gw : WebGateway) {task : TaskId} {req : GatewayRequest}
    {net : Surroundings}
    (h : ∀ row, handleFetch libs gw s req net ≠ .cached row) :
    HitAllowed libs s (.fetch task req net) := by
  intro parsed hcheck row hrow
  exact absurd (by rw [handleFetch, hcheck]; simp only [hrow]) (h row)

lemma servedAllowed_step (hs : WebInv libs gw s) (h : s.step libs gw a = some t) :
    ServedAllowed libs gw t ↔ ServedAllowed libs gw s ∧ HitAllowed libs s a := by
  cases WebRule.of_step h with
  | quiet a now rules ha =>
    have hhit : HitAllowed libs s a := by
      cases a with
      | fetch task req net => exact absurd rfl (ha task req net)
      | _ => trivial
    exact (and_iff_left hhit).symm
  | purge => exact (and_iff_left trivial).symm
  | refused task req net response hfetch | fetched task req net url_hash fetched hfetch =>
    refine (and_iff_left (hitAllowed_of_not_cached gw ?_)).symm
    intro row hcached
    cases hfetch.symm.trans hcached
  | cached task req net row hfetch =>
    obtain ⟨parsed, hcheck, hrow⟩ := handleFetch_cached hfetch
    obtain ⟨url_hash, hcache⟩ := cache_of_cacheHit hrow
    refine (servedAllowed_append rfl).trans (and_congr_right fun _ => ?_)
    constructor
    · intro hallows parsed' hcheck' row' hrow'
      obtain rfl := Except.ok.inj (hcheck.symm.trans hcheck')
      obtain rfl := Option.some.inj (hrow.symm.trans hrow')
      exact hallows.rules
    · intro hhit
      exact ⟨hhit parsed hcheck row hrow, hs.cache url_hash row hcache⟩
  | store task x written htask =>
    have hallows := hs.tasks task x htask
    exact (servedAllowed_append rfl).trans (and_congr_right fun _ => iff_of_true hallows trivial)

/-- The pages of a run are all allowed exactly when, at each answer from the cache, the rules of
the project allow the page behind it. -/
theorem served_allowed_iff {as : List WebAction}
    (h : exec (WebState.step libs gw) .init as = some s) :
    ServedAllowed libs gw s ↔ Along (WebState.step libs gw) (HitAllowed libs) .init as := by
  have hinit : ServedAllowed libs gw .init := by
    intro page hpage
    cases hpage
  have hrun := exec_iff_along (P := ServedAllowed libs gw) (C := HitAllowed libs)
    (fun _ _ _ => webInv_step) (fun _ _ _ => servedAllowed_step) webInv_init h
  rw [hrun]
  exact and_iff_right hinit

end

/-! ### A page that is blocked for one project -/

/-- The libraries on the inputs of the runs below. -/
def sampleLibs : GatewayLibs where
  toLowercase s := s
  isMatch _ _ := none
  parseIp _ := none
  toUppercase s := s
  parseUrl s :=
    if s = "http://a.test/" then .ok ⟨"http", some "a.test", some 80, s⟩
    else if s = "http://b.test/secret" then .ok ⟨"http", some "b.test", some 80, s⟩
    else .error "relative URL without a base"
  join _ s :=
    if s = "http://b.test/secret" then .ok ⟨"http", some "b.test", some 80, s⟩
    else .error "relative URL without a base"
  parseUuid s :=
    if s = "00000000-0000-0000-0000-000000000001" then some 1
    else if s = "00000000-0000-0000-0000-000000000002" then some 2
    else none
  sha256Hex s :=
    if s = "http://a.test/" then
      "b28e3efd6948b8cf6ad9c713cc1225ad11ef27c54a95939f7fd248d6d4ff2116"
    else ""
  showIp _ := ""
  html2text _ := ""

def sampleGateway : WebGateway := ⟨none, 3600, 100000, 5⟩

/-- `a.test` redirects to `b.test`, which answers with a text. -/
def sampleSurroundings : Surroundings where
  userRate := .ok ()
  rulesRead := true
  cacheRead := true
  globalRate := .ok ()
  lookupHost _ host _ :=
    if host = "a.test" then .ok [.v4 (Ipv4Addr.ofOctets 93 184 215 14)]
    else .ok [.v4 (Ipv4Addr.ofOctets 93 184 215 15)]
  send _ url _ :=
    if url = "http://a.test/" then .ok ⟨302, some (some "http://b.test/secret"), none, []⟩
    else .ok ⟨200, none, some "text/plain", [.ok [104, 105]]⟩

/-- A project asks for the page at `a.test`. -/
def sampleRequest (project_id : String) : GatewayRequest :=
  ⟨some "http://a.test/", none, some project_id⟩

/-- Project 2 blocks `b.test`. -/
def sampleRule : WebFetchRuleRow :=
  ⟨9, "project", some 2, "block", "domain", "b.test", none⟩

/-- Project 1 fetches the page, and then project 2 asks for it. -/
def sharedPage : List WebAction :=
  [.addRule sampleRule,
    .fetch 0 (sampleRequest "00000000-0000-0000-0000-000000000001") sampleSurroundings,
    .store 0 true,
    .fetch 1 (sampleRequest "00000000-0000-0000-0000-000000000002") sampleSurroundings]

/-- Project 1 asks for the page again. -/
def ownPage : List WebAction :=
  [.addRule sampleRule,
    .fetch 0 (sampleRequest "00000000-0000-0000-0000-000000000001") sampleSurroundings,
    .store 0 true,
    .fetch 1 (sampleRequest "00000000-0000-0000-0000-000000000001") sampleSurroundings]

/-- Project 2 is handed the page that it blocks. -/
theorem not_served_allowed_shared :
    ¬ ∀ as s, exec (WebState.step sampleLibs sampleGateway) .init as = some s →
      ServedAllowed sampleLibs sampleGateway s := by
  intro h
  have hblocked : ((exec (WebState.step sampleLibs sampleGateway) .init sharedPage).map fun s =>
      s.served.all fun page => evaluateRules sampleLibs.toTextLibs page.source.1 page.source.2
        page.rules = .allowed) = some false := by decide
  obtain ⟨s, hs, hall⟩ := Option.map_eq_some_iff.mp hblocked
  obtain ⟨page, hpage, hrules⟩ := List.all_eq_false.mp hall
  exact hrules (decide_eq_true (h sharedPage s hs page hpage).rules)

theorem served_allowed_iff_own :
    ∃ s, exec (WebState.step sampleLibs sampleGateway) .init ownPage = some s ∧
      s.served.length = 2 ∧ ServedAllowed sampleLibs sampleGateway s := by
  obtain ⟨s, hs⟩ : ∃ s, exec (WebState.step sampleLibs sampleGateway) .init ownPage = some s :=
    ⟨_, rfl⟩
  refine ⟨s, hs, ?_, (served_allowed_iff hs).mpr (by decide)⟩
  rw [← Option.some.inj hs]
  rfl

end Arbeiterfarm.Web
