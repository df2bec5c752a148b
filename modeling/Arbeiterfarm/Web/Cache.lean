import Arbeiterfarm.Foundation.Exec
import Arbeiterfarm.Web.Gateway
import Mathlib.Logic.Function.Basic

/-!
# The shared response cache

The rows of `web_fetch_cache` are keyed by the hash of the requested URL and shared by all
projects. Any number of requests are served at a time: one that goes to the network puts its
response into the cache when it is finished. The rules change between the requests.

Where a cached body was read from is not a column of the table, but for the text of the URL; it is
read by no step. `served` lists the bodies that have been handed out.
-/

namespace Arbeiterfarm.Web

open Foundation

structure CacheRow where
  url_hash : String
  url : String
  status_code : ℕ
  content_type : Option String
  body : Option String
  expires_at : ℤ
  /-- Where the body was read from. -/
  source : Url × List IpAddr

/-- A request that waits for its response to be put into the cache. -/
structure InFlight where
  rules : List WebFetchRuleRow
  url_hash : String
  fetched : Fetched

/-- A body that was handed out, with the rules of the request and where it was read from. -/
structure Served where
  rules : List WebFetchRuleRow
  source : Url × List IpAddr
  response : GatewayResponse

abbrev TaskId := ℕ

/-- The rules are in the order of `created_at`. -/
structure WebState where
  now : ℤ
  rules : List WebFetchRuleRow
  cache : String → Option CacheRow
  tasks : TaskId → Option InFlight
  served : List Served

def WebState.init : WebState := ⟨0, [], fun _ => none, fun _ => none, []⟩

inductive WebAction where
  | clock (d : ℕ)
  | addRule (rule : WebFetchRuleRow)
  | removeRule (id : Uuid)
  | purge
  | fetch (task : TaskId) (req : GatewayRequest) (net : Surroundings)
  | store (task : TaskId) (written : Bool)

/-! ### Statements -/

/-- The rules of a project are the global ones and its own. -/
def listRules (rules : List WebFetchRuleRow) : Option Uuid → List WebFetchRuleRow
  | some pid => rules.filter fun r => r.scope = "global" ∨ r.project_id = some pid
  | none => rules

def cacheGet (now : ℤ) (cache : String → Option CacheRow) (url_hash : String) : Option CacheRow :=
  (cache url_hash).filter fun row => row.expires_at > now

def cachePut (cache : String → Option CacheRow) (row : CacheRow) : String → Option CacheRow :=
  Function.update cache row.url_hash (some row)

lemma cachePut_apply (cache : String → Option CacheRow) (row : CacheRow) (url_hash : String) :
    cachePut cache row url_hash = if url_hash = row.url_hash then some row else cache url_hash :=
  Function.update_apply _ _ _ _

def cachePurgeExpired (now : ℤ) (cache : String → Option CacheRow) : String → Option CacheRow :=
  fun url_hash => (cache url_hash).filter fun row => ¬ row.expires_at ≤ now

/-! ### Requests -/

section

variable (libs : GatewayLibs) (gw : WebGateway)

def WebState.rulesOf (s : WebState) (req : GatewayRequest) : List WebFetchRuleRow :=
  listRules s.rules (req.project_id.bind libs.parseUuid)

/-- The row that answers the request: one for its URL, of a response that was no failure. -/
def WebState.cacheHit (s : WebState) (net : Surroundings) (parsed : Url) : Option CacheRow :=
  if net.cacheRead then
    (cacheGet s.now s.cache (libs.sha256Hex parsed.as_str)).filter fun row =>
      200 ≤ row.status_code ∧ row.status_code < 400
  else none

inductive FetchOutcome where
  | refused (response : GatewayResponse)
  | cached (row : CacheRow)
  | fetched (url_hash : String) (fetched : Fetched)

/-- A request up to the point where its response is known. -/
def handleFetch (s : WebState) (req : GatewayRequest) (net : Surroundings) : FetchOutcome :=
  match checkRequest libs net req (s.rulesOf libs req) with
  | .error response => .refused response
  | .ok parsed =>
    match s.cacheHit libs net parsed with
    | some row => .cached row
    | none =>
      match fetchNetwork libs gw net (s.rulesOf libs req) parsed with
      | .error response => .refused response
      | .ok fetched => .fetched (libs.sha256Hex parsed.as_str) fetched

def CacheRow.response (row : CacheRow) : GatewayResponse :=
  .success (responseData row.url row.status_code row.content_type row.body false) true

def Fetched.response (f : Fetched) : GatewayResponse :=
  .success (responseData f.url.as_str f.status f.content_type (some f.body) f.truncated) false

/-- The row for a response. -/
def cacheRow (now : ℤ) (x : InFlight) : CacheRow :=
  { url_hash := x.url_hash, url := x.fetched.url.as_str, status_code := x.fetched.status,
    content_type := x.fetched.content_type, body := some x.fetched.body,
    expires_at := now + gw.cache_ttl, source := (x.fetched.url, x.fetched.addrs) }

/-- Put the response into the cache, unless it is a failure, and return it. A write that fails
changes nothing. -/
def storeResponse (s : WebState) (task : TaskId) (x : InFlight) (written : Bool) : WebState :=
  { s with
    cache :=
      if written && 200 ≤ x.fetched.status && x.fetched.status < 400 then
        cachePut s.cache (cacheRow gw s.now x)
      else s.cache
    tasks := Function.update s.tasks task none
    served := s.served ++ [⟨x.rules, (x.fetched.url, x.fetched.addrs), x.fetched.response⟩] }

def WebState.step (s : WebState) : WebAction → Option WebState
  | .clock d => some { s with now := s.now + d }
  | .addRule rule => some { s with rules := s.rules ++ [rule] }
  | .removeRule id => some { s with rules := s.rules.filter (·.id ≠ id) }
  | .purge => some { s with cache := cachePurgeExpired s.now s.cache }
  | .fetch task req net =>
    if (s.tasks task).isSome then none
    else
      match handleFetch libs gw s req net with
      | .refused _ => some s
      | .cached row =>
        some { s with served := s.served ++ [⟨s.rulesOf libs req, row.source, row.response⟩] }
      | .fetched url_hash fetched =>
        some { s with
          tasks := Function.update s.tasks task (some ⟨s.rulesOf libs req, url_hash, fetched⟩) }
  | .store task written => (s.tasks task).map fun x => storeResponse gw s task x written

/-! ### What a step can do -/

/-- The steps of the gateway, with the facts each of them rests on. -/
inductive WebRule (s : WebState) : WebAction → WebState → Prop
  | quiet (a) (now : ℤ) (rules) (ha : ∀ task req net, a ≠ .fetch task req net) :
    WebRule s a { s with now := now, rules := rules }
  | purge : WebRule s .purge { s with cache := cachePurgeExpired s.now s.cache }
  | refused (task req net) (response)
    (h : handleFetch libs gw s req net = .refused response) : WebRule s (.fetch task req net) s
  | cached (task req net) (row) (h : handleFetch libs gw s req net = .cached row) :
    WebRule s (.fetch task req net)
      { s with served := s.served ++ [⟨s.rulesOf libs req, row.source, row.response⟩] }
  | fetched (task req net) (url_hash fetched)
    (h : handleFetch libs gw s req net = .fetched url_hash fetched) :
    WebRule s (.fetch task req net) { s with
      tasks := Function.update s.tasks task (some ⟨s.rulesOf libs req, url_hash, fetched⟩) }
  | store (task x written) (htask : s.tasks task = some x) :
    WebRule s (.store task written) (storeResponse gw s task x written)

variable {libs gw}

lemma WebRule.of_step {s t : WebState} {a : WebAction} (h : s.step libs gw a = some t) :
    WebRule libs gw s a t := by
  cases a with
  | clock d =>
    obtain rfl := Option.some.inj h
    exact .quiet _ (s.now + d) s.rules (by simp)
  | addRule rule | removeRule id =>
    obtain rfl := Option.some.inj h
    exact .quiet _ s.now _ (by simp)
  | purge =>
    obtain rfl := Option.some.inj h
    exact .purge
  | fetch task req net =>
    rw [WebState.step] at h
    split_ifs at h
    split at h
    · rename_i response hfetch
      obtain rfl := Option.some.inj h
      exact .refused task req net response hfetch
    · rename_i row hfetch
      obtain rfl := Option.some.inj h
      exact .cached task req net row hfetch
    · rename_i url_hash fetched hfetch
      obtain rfl := Option.some.inj h
      exact .fetched task req net url_hash fetched hfetch
  | store task written =>
    obtain ⟨x, hx, rfl⟩ := Option.map_eq_some_iff.mp h
    exact .store task x written hx

end

end Arbeiterfarm.Web
