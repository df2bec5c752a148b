import Arbeiterfarm.Web.ServedPages

/-!
# The admission of a request

The rules are asked twice: before the host is resolved, without addresses, and with the addresses
after that. Rules about addresses match nothing the first time. So the first verdict is that of the
second where block rules decide, or allow rules about the URL; an allow rule about
addresses is asked too early.
-/

namespace Arbeiterfarm.Web

open Foundation Fallible GatewayResponse

variable {libs : GatewayLibs} {gw : WebGateway} {net : Surroundings} {s : WebState}
  {req : GatewayRequest} {url : Url} {addrs addrs' : List IpAddr} {rules : List WebFetchRuleRow}
  {rule : WebFetchRuleRow}

/-! ### The verdict -/

/-- A rule that matches still does with more addresses. -/
lemma matchesRule_mono {text : TextLibs} (h : matchesRule text url addrs rule = true)
    (hsub : addrs ⊆ addrs') : matchesRule text url addrs' rule = true := by
  simp only [matchesRule] at h ⊢
  split_ifs at h ⊢
  · exact h
  · exact h
  · exact h
  · exact h
  · cases hcidr : parseCidr text.parseIp rule.pattern with
    | none =>
      rw [hcidr] at h
      cases h
    | some net =>
      rw [hcidr] at h
      obtain ⟨ip, hip, hin⟩ := List.any_eq_true.mp h
      exact List.any_eq_true.mpr ⟨ip, hsub hip, hin⟩

/-- The rules allow a URL when no block rule matches, and an allow rule does if there are any. -/
lemma evaluateRules_eq_allowed {text : TextLibs} :
    evaluateRules text url addrs rules = .allowed ↔
      (∀ r ∈ rules, r.rule_type = "block" → matchesRule text url addrs r = false) ∧
      ((∀ r ∈ rules, r.rule_type = "block") ∨
        ∃ r ∈ rules, r.rule_type ≠ "block" ∧ matchesRule text url addrs r = true) := by
  have hblocks : (rules.filter (·.rule_type = "block")).find? (matchesRule text url addrs) = none ↔
      ∀ r ∈ rules, r.rule_type = "block" → matchesRule text url addrs r = false := by
    simp [List.find?_eq_none]
  have hallows : ((rules.filter (·.rule_type ≠ "block")).isEmpty ||
        (rules.filter (·.rule_type ≠ "block")).any (matchesRule text url addrs)) = true ↔
      (∀ r ∈ rules, r.rule_type = "block") ∨
        ∃ r ∈ rules, r.rule_type ≠ "block" ∧ matchesRule text url addrs r = true := by
    simp [List.isEmpty_iff, List.filter_eq_nil_iff]
  rw [← hblocks, ← hallows, evaluateRules]
  cases (rules.filter (·.rule_type = "block")).find? (matchesRule text url addrs) with
  | some r => simp
  | none =>
    simp only [true_and]
    split_ifs with h
    · exact iff_of_true rfl h
    · exact iff_of_false (by simp) h

/-- The allow rules decide the URL without its addresses: there are none, or one that is not about
addresses matches. -/
def AllowsByUrl (libs : GatewayLibs) (url : Url) (rules : List WebFetchRuleRow) : Prop :=
  (∀ r ∈ rules, r.rule_type = "block") ∨
    ∃ r ∈ rules, r.rule_type ≠ "block" ∧ r.pattern_type ≠ "ip_cidr" ∧
      matchesRule libs.toTextLibs url [] r = true

/-- Where the allow rules decide the URL, what is allowed with the addresses is allowed without. -/
lemma evaluateRules_nil (hallow : AllowsByUrl libs url rules)
    (h : evaluateRules libs.toTextLibs url addrs rules = .allowed) :
    evaluateRules libs.toTextLibs url [] rules = .allowed := by
  obtain ⟨hblock, -⟩ := evaluateRules_eq_allowed.mp h
  refine evaluateRules_eq_allowed.mpr ⟨?_, ?_⟩
  · intro r hr hr'
    by_contra hmatch
    have hmatch' := matchesRule_mono (Bool.not_eq_false _ ▸ hmatch) (List.nil_subset addrs)
    rw [hblock r hr hr'] at hmatch'
    cases hmatch'
  · rcases hallow with hnone | ⟨r, hr, hr', -, hmatch⟩
    · exact .inl hnone
    · exact .inr ⟨r, hr, hr', hmatch⟩

/-! ### The request -/

/-- Where the first request is sent to: the URL and its addresses, if nothing stops it. -/
def letThrough (libs : GatewayLibs) (gw : WebGateway) (s : WebState) (req : GatewayRequest)
    (net : Surroundings) : Option (Url × List IpAddr) :=
  match checkRequest libs net req (s.rulesOf libs req) with
  | .error _ => none
  | .ok parsed =>
    if (s.cacheHit libs net parsed).isSome then none
    else
      match resolveAndValidate libs gw (net.lookupHost 0) parsed (s.rulesOf libs req),
        net.globalRate with
      | .ok addrs, .ok () => some (parsed, addrs)
      | _, _ => none

/-- The checks of a request that are not about the rules or private addresses. -/
structure PassesOtherChecks (libs : GatewayLibs) (gw : WebGateway) (s : WebState)
    (req : GatewayRequest) (net : Surroundings) (url : Url) (addrs : List IpAddr) : Prop where
  parsed : ∃ url_str, req.url = some url_str ∧ url_str ≠ "" ∧ libs.parseUrl url_str = .ok url
  scheme : url.scheme = "http" ∨ url.scheme = "https"
  userRate : net.userRate = .ok ()
  rulesRead : net.rulesRead = true
  notCached : s.cacheHit libs net url = none
  resolved : ∃ host, url.host_str = some host ∧
    net.lookupHost 0 host (url.port_or_known_default.getD 443) = .ok addrs
  nonempty : addrs ≠ []
  country : ∀ ip ∈ addrs, ∀ geoip, gw.geoip = some geoip → geoip.check libs.toUppercase ip = none
  globalRate : net.globalRate = .ok ()

lemma checkScheme_eq_ok {message : String} {u : Unit} :
    checkScheme message url = .ok u ↔ url.scheme = "http" ∨ url.scheme = "https" := by
  rw [checkScheme]
  split_ifs with h
  · exact iff_of_true rfl (by simpa using h)
  · exact iff_of_false (by simp) (by simpa using h)

lemma checkUrl_eq_ok {message : String} {u : Unit} :
    checkUrl libs message url rules = .ok u ↔
      evaluateRules libs.toTextLibs url [] rules = .allowed := by
  rw [checkUrl]
  cases evaluateRules libs.toTextLibs url [] rules with
  | allowed => simp
  | blocked reason => simp

lemma checkRequest_eq_ok :
    checkRequest libs net req rules = .ok url ↔
      (∃ url_str, req.url = some url_str ∧ url_str ≠ "" ∧ libs.parseUrl url_str = .ok url) ∧
      (url.scheme = "http" ∨ url.scheme = "https") ∧ url.host_str.isSome = true ∧
      net.userRate = .ok () ∧ net.rulesRead = true ∧
      evaluateRules libs.toTextLibs url [] rules = .allowed := by
  have hurl (url_str : String) : req.url.filter (· ≠ "") = some url_str ↔
      req.url = some url_str ∧ url_str ≠ "" := by
    rw [Option.filter_eq_some_iff, decide_eq_true_eq]
  rw [checkRequest]
  cases hfilter : req.url.filter (· ≠ "") with
  | none =>
    refine iff_of_false (by simp) ?_
    rintro ⟨⟨url_str, hsome, hne, -⟩, -⟩
    rw [(hurl url_str).mpr ⟨hsome, hne⟩] at hfilter
    cases hfilter
  | some url_str =>
    obtain ⟨hsome, hne⟩ := (hurl url_str).mp hfilter
    cases hparse : libs.parseUrl url_str with
    | error e =>
      refine iff_of_false (by simp [hparse]) ?_
      rintro ⟨⟨url_str', hsome', -, hparse'⟩, -⟩
      obtain rfl := Option.some.inj (hsome.symm.trans hsome')
      rw [hparse] at hparse'
      cases hparse'
    | ok parsed =>
      simp only [hparse, bind_eq_ok, guard_eq_ok, pure_eq_ok, mapError_eq_ok, checkScheme_eq_ok,
        checkUrl_eq_ok]
      constructor
      · rintro ⟨-, hscheme, hhost, ⟨⟩, huser, hread, -, hrules, rfl⟩
        refine ⟨⟨url_str, hsome, hne, hparse⟩, hscheme, ?_, huser, ?_, hrules⟩
        · simpa [Option.isSome_iff_ne_none] using hhost
        · simpa using hread
      · rintro ⟨⟨url_str', hsome', -, hparse'⟩, hscheme, hhost, huser, hread, hrules⟩
        obtain rfl := Option.some.inj (hsome.symm.trans hsome')
        obtain rfl := Except.ok.inj (hparse.symm.trans hparse')
        refine ⟨(), hscheme, ?_, (), huser, ?_, (), hrules, rfl⟩
        · simpa [Option.isSome_iff_ne_none] using hhost
        · simpa using hread

lemma resolveAndValidate_eq_ok {lookupHost : String → ℕ → Except String (List IpAddr)} :
    resolveAndValidate libs gw lookupHost url rules = .ok addrs ↔
      (∃ host, url.host_str = some host ∧
        lookupHost host (url.port_or_known_default.getD 443) = .ok addrs) ∧
      Allows libs gw rules (url, addrs) := by
  constructor
  · intro h
    refine ⟨?_, allows_of_resolveAndValidate h⟩
    rw [resolveAndValidate] at h
    split at h
    · cases h
    · rename_i host hhost
      refine ⟨host, hhost, ?_⟩
      split at h
      · cases h
      · rename_i addrs' hlookup
        split_ifs at h
        split at h
        · cases h
        · split at h
          · cases h
          · split at h
            · cases h
            · obtain rfl := Except.ok.inj h
              exact hlookup
  · rintro ⟨⟨host, hhost, hlookup⟩, hallows⟩
    have hempty : addrs.isEmpty = false := by
      simpa using hallows.reachable.resolved
    have hprivate : addrs.find? isPrivateIp = none := by
      simpa [List.find?_eq_none] using hallows.reachable.notPrivate
    have hcountry : (addrs.findSome? fun ip => (gw.geoip.bind fun geoip =>
        geoip.check libs.toUppercase ip).map fun country => (ip, country)) = none := by
      rw [List.findSome?_eq_none_iff]
      intro ip hip
      cases hgeoip : gw.geoip with
      | none => rfl
      | some geoip => rw [Option.bind_some, hallows.reachable.country ip hip geoip hgeoip]; rfl
    have hrules : evaluateRules libs.toTextLibs url addrs rules = .allowed := hallows.rules
    simp only [resolveAndValidate, hhost, hlookup, hempty, hprivate, hcountry, hrules]
    rfl

/-! ### Admission -/

/-- The first request is sent when every check passes, of both evaluations of the rules. -/
lemma letThrough_eq_some :
    letThrough libs gw s req net = some (url, addrs) ↔
      PassesOtherChecks libs gw s req net url addrs ∧
      evaluateRules libs.toTextLibs url [] (s.rulesOf libs req) = .allowed ∧
      evaluateRules libs.toTextLibs url addrs (s.rulesOf libs req) = .allowed ∧
      ∀ ip ∈ addrs, isPrivateIp ip = false := by
  constructor
  · intro h
    rw [letThrough] at h
    split at h
    · cases h
    · rename_i parsed hcheck
      split_ifs at h with hcached
      split at h
      · rename_i addrs' haddrs hglobal
        obtain ⟨rfl, rfl⟩ := Prod.mk.inj (Option.some.inj h)
        obtain ⟨hparsed, hscheme, -, huser, hread, hearly⟩ := checkRequest_eq_ok.mp hcheck
        obtain ⟨hresolved, hrules, hreachable⟩ := resolveAndValidate_eq_ok.mp haddrs
        have hmiss : s.cacheHit libs net parsed = none := by simpa using hcached
        exact ⟨⟨hparsed, hscheme, huser, hread, hmiss, hresolved, hreachable.resolved,
          hreachable.country, hglobal⟩, hearly, hrules, hreachable.notPrivate⟩
      · cases h
  · rintro ⟨hpasses, hearly, hrules, hpublic⟩
    obtain ⟨host, hhost, -⟩ := hpasses.resolved
    have hcheck : checkRequest libs net req (s.rulesOf libs req) = .ok url :=
      checkRequest_eq_ok.mpr ⟨hpasses.parsed, hpasses.scheme, by rw [hhost]; rfl,
        hpasses.userRate, hpasses.rulesRead, hearly⟩
    have haddrs : resolveAndValidate libs gw (net.lookupHost 0) url (s.rulesOf libs req) =
        .ok addrs :=
      resolveAndValidate_eq_ok.mpr
        ⟨hpasses.resolved, hrules, hpasses.nonempty, hpublic, hpasses.country⟩
    simp only [letThrough, hcheck, hpasses.notCached, haddrs, hpasses.globalRate]
    rfl

/-- A request that is not let through does not depend on what the network sends. -/
lemma handleFetch_of_letThrough_none (h : letThrough libs gw s req net = none)
    (send : ℕ → String → List IpAddr → Except String HttpResponse) :
    handleFetch libs gw s req { net with send := send } = handleFetch libs gw s req net := by
  have hcheck : checkRequest libs { net with send := send } req (s.rulesOf libs req) =
      checkRequest libs net req (s.rulesOf libs req) := rfl
  have hhit (parsed : Url) : s.cacheHit libs { net with send := send } parsed =
      s.cacheHit libs net parsed := rfl
  rw [handleFetch, handleFetch, hcheck]
  cases hparsed : checkRequest libs net req (s.rulesOf libs req) with
  | error response => rfl
  | ok parsed =>
    simp only [letThrough, hparsed] at h
    simp only [hhit]
    cases hcached : s.cacheHit libs net parsed with
    | some row => rfl
    | none =>
      rw [hcached] at h
      simp only [Option.isSome_none, Bool.false_eq_true, if_false] at h
      have hfetch : fetchNetwork libs gw { net with send := send } (s.rulesOf libs req) parsed =
          fetchNetwork libs gw net (s.rulesOf libs req) parsed := by
        simp only [fetchNetwork]
        cases haddrs : resolveAndValidate libs gw (net.lookupHost 0) parsed
            (s.rulesOf libs req) with
        | error e => rfl
        | ok addrs =>
          cases hglobal : net.globalRate with
          | error e => rfl
          | ok u =>
            rw [haddrs, hglobal] at h
            cases h
      rw [hfetch]

/-- A request that is let through fails if the network does. -/
lemma handleFetch_of_letThrough (h : letThrough libs gw s req net = some (url, addrs))
    {e : String} (hsend : net.send 0 url.as_str addrs = .error e) :
    handleFetch libs gw s req net =
      .refused (failure "fetch_error" ("HTTP request failed: " ++ e)) := by
  rw [letThrough] at h
  split at h
  · cases h
  · next parsed hcheck =>
    split_ifs at h with hcached
    split at h
    · next addrs' haddrs hglobal =>
      obtain ⟨rfl, rfl⟩ := Prod.mk.inj (Option.some.inj h)
      have hmiss : s.cacheHit libs net parsed = none := by simpa using hcached
      have hloop (remaining : ℕ) : fetchLoop libs gw net (s.rulesOf libs req) remaining 0 parsed
          addrs' = .error (failure "fetch_error" ("HTTP request failed: " ++ e)) := by
        cases remaining <;> rw [fetchLoop, hsend]
      have hfetch : fetchNetwork libs gw net (s.rulesOf libs req) parsed =
          .error (failure "fetch_error" ("HTTP request failed: " ++ e)) := by
        simp only [fetchNetwork, haddrs, hglobal]
        show (fetchLoop libs gw net _ _ 0 parsed addrs' >>= _) = _
        rw [hloop]
        rfl
      simp only [handleFetch, hcheck, hmiss, hfetch]
    · cases h

/-- A request is let through only if the rules allow the URL together with its addresses and none
of these is private. Where the allow rules decide the URL without its addresses, the first
evaluation changes nothing, and the request is let through exactly then, if the other checks let
it. -/
theorem letThrough_verdict (libs : GatewayLibs) (gw : WebGateway) (s : WebState)
    (req : GatewayRequest) (net : Surroundings) (url : Url) (addrs : List IpAddr) :
    (letThrough libs gw s req net = some (url, addrs) →
      evaluateRules libs.toTextLibs url addrs (s.rulesOf libs req) = .allowed ∧
      ∀ ip ∈ addrs, isPrivateIp ip = false) ∧
    (AllowsByUrl libs url (s.rulesOf libs req) →
      (evaluateRules libs.toTextLibs url addrs (s.rulesOf libs req) = .allowed →
        evaluateRules libs.toTextLibs url [] (s.rulesOf libs req) = .allowed) ∧
      (PassesOtherChecks libs gw s req net url addrs →
        (letThrough libs gw s req net = some (url, addrs) ↔
          evaluateRules libs.toTextLibs url addrs (s.rulesOf libs req) = .allowed ∧
          ∀ ip ∈ addrs, isPrivateIp ip = false))) := by
  constructor
  · intro h
    exact (letThrough_eq_some.mp h).2.2
  · intro hallow
    refine ⟨evaluateRules_nil hallow, ?_⟩
    intro hpasses
    rw [letThrough_eq_some]
    constructor
    · rintro ⟨-, -, hverdict⟩
      exact hverdict
    · rintro ⟨hrules, hpublic⟩
      exact ⟨hpasses, evaluateRules_nil hallow hrules, hrules, hpublic⟩

/-! ### Requests for one page -/

def pageLibs : GatewayLibs :=
  { sampleLibs with
    parseIp := fun s =>
      if s = "93.184.215.0" then some (.v4 (Ipv4Addr.ofOctets 93 184 215 0)) else none }

def pageUrl : Url := ⟨"http", some "a.test", some 80, "http://a.test/"⟩

def pageAddrs : List IpAddr := [.v4 (Ipv4Addr.ofOctets 93 184 215 14)]

def pageRequest : GatewayRequest := sampleRequest "00000000-0000-0000-0000-000000000001"

/-- A gateway that blocks the country of the page. -/
def countryGateway : WebGateway :=
  { sampleGateway with
    geoip := some ⟨fun _ => some "US", ["US"]⟩ }

def withRule (rule : WebFetchRuleRow) : WebState := { WebState.init with rules := [rule] }

def addressRule : WebFetchRuleRow :=
  ⟨9, "global", none, "allow", "ip_cidr", "93.184.215.0/24", none⟩

def hostRule : WebFetchRuleRow := ⟨9, "global", none, "allow", "domain", "a.test", none⟩

/-- The request and the verdict on it. -/
def LetThroughIff (gw : WebGateway) (s : WebState) : Prop :=
  letThrough pageLibs gw s pageRequest sampleSurroundings = some (pageUrl, pageAddrs) ↔
    evaluateRules pageLibs.toTextLibs pageUrl pageAddrs (s.rulesOf pageLibs pageRequest) =
      .allowed ∧ ∀ ip ∈ pageAddrs, isPrivateIp ip = false

lemma pageAddrs_public : ∀ ip ∈ pageAddrs, isPrivateIp ip = false := by decide

lemma not_letThroughIff {gw : WebGateway} {s : WebState}
    (hnone : letThrough pageLibs gw s pageRequest sampleSurroundings = none)
    (hallowed : evaluateRules pageLibs.toTextLibs pageUrl pageAddrs
      (s.rulesOf pageLibs pageRequest) = .allowed) : ¬ LetThroughIff gw s := by
  intro h
  have hsome := h.mpr ⟨hallowed, pageAddrs_public⟩
  rw [hnone] at hsome
  cases hsome

/-- The country is blocked, which the rules do not know of; and a rule that allows the addresses of
the page is asked before they are known. -/
theorem not_letThroughIff_page :
    ¬ LetThroughIff countryGateway .init ∧
      ¬ LetThroughIff sampleGateway (withRule addressRule) :=
  ⟨not_letThroughIff rfl rfl, not_letThroughIff rfl rfl⟩

theorem letThrough_verdict_page :
    letThrough pageLibs sampleGateway (withRule hostRule) pageRequest sampleSurroundings =
      some (pageUrl, pageAddrs) := by
  have hallow :
      AllowsByUrl pageLibs pageUrl ((withRule hostRule).rulesOf pageLibs pageRequest) := by
    refine .inr ⟨hostRule, List.mem_singleton_self _, ?_, ?_, rfl⟩
    · decide
    · decide
  have hpasses : PassesOtherChecks pageLibs sampleGateway (withRule hostRule) pageRequest
      sampleSurroundings pageUrl pageAddrs := by
    refine ⟨⟨"http://a.test/", rfl, ?_, rfl⟩, .inl rfl, rfl, rfl, rfl, ⟨"a.test", rfl, rfl⟩, ?_, ?_,
      rfl⟩
    · decide
    · exact List.cons_ne_nil _ _
    · intro ip _ geoip hgeoip
      cases hgeoip
  obtain ⟨-, hverdict⟩ := letThrough_verdict pageLibs sampleGateway (withRule hostRule) pageRequest
    sampleSurroundings pageUrl pageAddrs
  exact ((hverdict hallow).2 hpasses).mpr ⟨rfl, pageAddrs_public⟩

end Arbeiterfarm.Web
