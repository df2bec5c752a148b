import Arbeiterfarm.Core.Json
import Arbeiterfarm.Foundation.Table
import Arbeiterfarm.Jobs.Worker
import Arbeiterfarm.Tools.VtRateLimiter
import Mathlib.Logic.Function.Basic

/-!
# The VirusTotal gateway

Every connection is a task of its own: the limiter of the user, the cache, the limiter of all
requests, the call to VirusTotal and the cache again. Tasks interleave at every await. What has been
sent to VirusTotal, what it has answered and what has been stored are kept as a history.
-/

namespace Arbeiterfarm.Tools.Vt

open Foundation Jobs

/-! ### Reports -/

/-- What is used of libraries, and whether the build checks sums for overflow. -/
structure VtLibs where
  overflow_checks : Bool
  /-- `uuid::Uuid::parse_str` succeeds. -/
  isUuid : String → Bool
  /-- The date of a number of seconds, `none` if it is out of range. -/
  formatDate : ℤ → Option String

/-- `value[key]` -/
def at' (value : Json) (key : String) : Json := (value.get key).getD .null

/-- The sum of numbers of 64 bits. One that overflows wraps around, or panics where it is
checked. -/
def sumI64 (overflow_checks : Bool) (ns : List ℤ) : Option ℤ :=
  ns.foldlM (fun sum n =>
    if -9223372036854775808 ≤ sum + n ∧ sum + n < 9223372036854775808 then some (sum + n)
    else if overflow_checks then none
    else some ((sum + n).bmod 18446744073709551616)) 0

/-- A concise summary of an answer of VirusTotal; `none` if it panics. -/
def extractVtSummary (libs : VtLibs) (sha256 : String) (body : Json) : Option Json := do
  let attrs := at' (at' body "data") "attributes"
  let stats := at' attrs "last_analysis_stats"
  let stat key := ((at' stats key).asI64).getD 0
  let positives ← sumI64 libs.overflow_checks (["malicious", "suspicious"].map stat)
  let total ← sumI64 libs.overflow_checks
    (["malicious", "suspicious", "undetected", "harmless", "timeout", "failure"].map stat)
  let tags := (((at' attrs "tags").asArray).map fun arr => arr.filterMap Json.asStr).getD []
  let first_seen := (((at' attrs "first_submission_date").asI64).map fun ts =>
    (libs.formatDate ts).getD "").getD ""
  let top_families :=
    (((at' (at' attrs "popular_threat_classification") "popular_threat_name").asArray).map
      fun arr => (arr.take 5).filterMap fun v => (at' v "value").asStr).getD []
  let permalink := "https://www.virustotal.com/gui/file/" ++ sha256
  some (.obj [("sha256", .str sha256),
    ("detection_ratio", .str (toString positives ++ "/" ++ toString total)),
    ("positives", .num (.int positives)),
    ("total", .num (.int total)),
    ("first_seen", .str first_seen),
    ("tags", .arr (tags.map .str)),
    ("top_families", .arr (top_families.map .str)),
    ("permalink", .str permalink)])

/-! ### The protocol -/

structure GatewayRequest where
  action : String
  sha256 : Option String
  user_id : Option String
  deriving DecidableEq, Repr

structure GatewayResponse where
  ok : Bool
  data : Option Json
  cached : Option Bool
  error : Option String
  message : Option String
  deriving DecidableEq, Repr

/-- What is not there is not sent. -/
def GatewayResponse.toJson (resp : GatewayResponse) : Json :=
  .obj ([some ("ok", .bool resp.ok),
    resp.data.map (("data", ·)),
    resp.cached.map (("cached", .bool ·)),
    resp.error.map (("error", .str ·)),
    resp.message.map (("message", .str ·))].filterMap id)

def errorResponse (client_code client_msg : String) : GatewayResponse :=
  ⟨false, none, none, some client_code, some client_msg⟩

/-- What the tool asks the gateway for. -/
def fileReportRequest (sha256 : String) (actor_user_id : Option String) : GatewayRequest :=
  ⟨"file_report", some sha256, actor_user_id⟩

/-- What the tool makes of the answer. -/
def fileReport (sha256 : String) (resp : Json) : Except ToolError Json :=
  if (at' resp "ok").asBool.getD false then
    let data := (resp.get "data").getD .null
    let cached := (at' resp "cached").asBool.getD false
    if data = .null then
      .ok (.obj [("found", .bool false),
        ("message", .str ((at' resp "message").asStr.getD
          "Hash not found in VirusTotal database")),
        ("sha256", .str sha256)])
    else
      .ok (.obj [("found", .bool true), ("cached", .bool cached), ("report", data)])
  else
    let error := (at' resp "error").asStr.getD "unknown"
    let message := (at' resp "message").asStr.getD "gateway error"
    .error ⟨error, message, error = "rate_limited" || error = "upstream_error", .null⟩

/-! ### The cache -/

structure VtRow where
  sha256 : String
  response : Json
  positives : Option ℤ
  total : Option ℤ
  fetched_at : ℤ
  deriving DecidableEq, Repr

abbrev VtCache := Table VtRow.sha256

/-- The response of the row, if it is not older than `ttl`. -/
def VtCache.get (ttl now : ℤ) (sha256 : String) (cache : VtCache) : Option Json :=
  ((cache.lookup sha256).filter fun row => now - ttl < row.fetched_at).map (·.response)

def fitsI32 (n : Option ℤ) : Bool :=
  match n with
  | none => true
  | some n => -2147483648 ≤ n && n < 2147483648

/-- The columns for the numbers have 32 bits: `none` if they do not fit. -/
def VtCache.put (now : ℤ) (sha256 : String) (response : Json) (positives total : Option ℤ)
    (cache : VtCache) : Option VtCache :=
  if fitsI32 positives && fitsI32 total then
    some (cache.upsert ⟨sha256, response, positives, total, now⟩
      (fun row => { row with response, positives, total, fetched_at := now }) fun _ => rfl)
  else none

def VtCache.evictExpired (ttl now : ℤ) (cache : VtCache) : VtCache :=
  cache.delete fun row => row.fetched_at ≤ now - ttl

/-! ### The gateway -/

/-- What comes of a call to VirusTotal. -/
inductive ApiResult where
  /-- It is not sent, or not answered in time. -/
  | failed
  | notFound
  /-- Another status than that of a success. -/
  | status (code : ℕ)
  /-- The body is no JSON. -/
  | unparsed
  | body (value : Json)
  deriving DecidableEq, Repr

inductive TaskPhase where
  | received
  /-- The user is tracked, or not too many users are. -/
  | admitted (user_id : String)
  /-- It waits for the limiter of the user. -/
  | waitingUser (user_id : String)
  | lookup
  | unlimited
  /-- It waits for the limiter of all requests. -/
  | waiting
  | calling
  | storing (summary : Json)
  /-- It has been answered, at a time of the database. -/
  | answered (resp : GatewayResponse) (now : ℤ)
  | panicked
  deriving DecidableEq, Repr

/-- A connection, with the numbers that its two calls of `acquire` have at the limiters. -/
structure Task where
  request : GatewayRequest
  user_token : Option ℕ
  token : Option ℕ
  phase : TaskPhase
  deriving DecidableEq, Repr

/-- The hash that is asked for. -/
def Task.sha256 (task : Task) : String := task.request.sha256.getD ""

structure VtConfig where
  libs : VtLibs
  requests_per_minute : UInt32
  cache_ttl : ℤ
  max_tracked_users : ℕ

structure VtGateway where
  /-- The time of the database. -/
  now : ℤ
  cache : VtCache
  /-- The users that have a limiter. -/
  per_user_limiters : List String
  /-- The limiters of the users, and that of all requests. -/
  limiters : Option String → Limiter
  tasks : List Task
  /-- The calls that have been sent to VirusTotal, with the numbers of their tokens. -/
  sent : List (ℕ × String)
  replies : List (String × ApiResult)
  stores : List (String × Json × ℤ)

inductive GatewayEvent where
  | clock (passed : ℕ)
  | arrive (req : GatewayRequest)
  /-- The request is checked, up to the number of users that are tracked. -/
  | check (t : ℕ)
  /-- The limiter of the user is taken, or made at a time. -/
  | track (t : ℕ) (now : ℕ)
  /-- What happens at a limiter but for new calls of `acquire`. -/
  | limiter (user_id : Option String) (act : Act)
  /-- The limiter of the user has an answer. -/
  | admittedUser (t : ℕ)
  | lookup (t : ℕ) (failed : Bool)
  | acquire (t : ℕ)
  | call (t : ℕ)
  | reply (t : ℕ) (result : ApiResult)
  | store (t : ℕ) (stored : Bool)
  | evict

/-- The limiter of all requests and those of the users. -/
def VtConfig.rpm (cfg : VtConfig) : Option String → UInt32
  | none => cfg.requests_per_minute
  | some _ => max cfg.requests_per_minute 1

namespace VtGateway

def new (cfg : VtConfig) (now : ℤ) (limiter_now : ℕ) : VtGateway where
  now
  cache := .empty _
  per_user_limiters := []
  limiters user_id := .init (cfg.rpm user_id) limiter_now
  tasks := []
  sent := []
  replies := []
  stores := []

section

variable (s : VtGateway)

def setPhase (t : ℕ) (task : Task) (phase : TaskPhase) : VtGateway :=
  { s with tasks := s.tasks.set t { task with phase } }

def answer (t : ℕ) (task : Task) (resp : GatewayResponse) : VtGateway :=
  s.setPhase t task (.answered resp s.now)

def setLimiter (user_id : Option String) (limiter : Limiter) : VtGateway :=
  { s with limiters := Function.update s.limiters user_id limiter }

end

variable (cfg : VtConfig) (s : VtGateway) (t : ℕ) (task : Task)

/-- `process_request`, and `handle_file_report` up to the limiter of the user. -/
def check : VtGateway :=
  if task.request.action = "file_report" then
    if task.sha256 = "" then s.answer t task (errorResponse "error" "invalid request")
    else
      match task.request.user_id with
      | none => s.setPhase t task .lookup
      | some uid =>
        if cfg.libs.isUuid uid then
          if uid ∉ s.per_user_limiters ∧ s.per_user_limiters.length ≥ cfg.max_tracked_users then
            s.answer t task (errorResponse "rate_limited" "rate limit exceeded")
          else s.setPhase t task (.admitted uid)
        else s.answer t task (errorResponse "error" "invalid request")
  else s.answer t task (errorResponse "error" "invalid request")

/-- `entry(uid).or_insert_with(…)`, and the call of `acquire`. -/
def track (uid : String) (now : ℕ) : Option VtGateway :=
  let limiter := if uid ∈ s.per_user_limiters then s.limiters (some uid)
    else .init (cfg.rpm (some uid)) now
  (limiter.step (cfg.rpm (some uid)) (.acquire 5000000000)).map fun limiter' =>
    let s := { s with
      per_user_limiters := if uid ∈ s.per_user_limiters then s.per_user_limiters
        else s.per_user_limiters ++ [uid] }
    (s.setLimiter (some uid) limiter').setPhase t
      { task with user_token := some limiter.requests.length } (.waitingUser uid)

/-- What a task does with the end of its call of `acquire`; `none` as long as it waits. -/
def acquired (granted : VtGateway) : Option Phase → Option VtGateway
  | some .granted => some granted
  | some (.timedOut _) =>
    some (s.answer t task (errorResponse "rate_limited" "rate limit exceeded"))
  | some .panicked => some (s.setPhase t task .panicked)
  | some (.acquiring _ _ _) | none => none

def lookupCache (failed : Bool) : VtGateway :=
  match if failed then none else s.cache.get cfg.cache_ttl s.now task.sha256 with
  | some cached_response => s.answer t task ⟨true, some cached_response, some true, none, none⟩
  | none => s.setPhase t task .unlimited

def receive (result : ApiResult) : VtGateway :=
  let s := { s with replies := s.replies ++ [(task.sha256, result)] }
  match result with
  | .failed | .status _ | .unparsed =>
    s.answer t task (errorResponse "upstream_error" "external lookup failed")
  | .notFound =>
    s.answer t task
      ⟨true, none, some false, none, some "Hash not found in VirusTotal database"⟩
  | .body body =>
    match extractVtSummary cfg.libs task.sha256 body with
    | some summary => s.setPhase t task (.storing summary)
    | none => s.setPhase t task .panicked

def store (summary : Json) (stored : Bool) : VtGateway :=
  let resp := ⟨true, some summary, some false, none, none⟩
  let put := s.cache.put s.now task.sha256 summary ((at' summary "positives").asI64)
    ((at' summary "total").asI64)
  match if stored then put else none with
  | some cache =>
    { s with cache, stores := s.stores ++ [(task.sha256, summary, s.now)] }.answer t task resp
  | none => s.answer t task resp

/-- A step of the task, if it is in the phase that the event is about. -/
def stepTask : GatewayEvent → Option VtGateway
  | .check _ => if task.phase = .received then some (s.check cfg t task) else none
  | .track _ now =>
    match task.phase with
    | .admitted uid => s.track cfg t task uid now
    | _ => none
  | .admittedUser _ =>
    match task.phase, task.user_token with
    | .waitingUser uid, some r =>
      s.acquired t task (s.setPhase t task .lookup) (s.limiters (some uid)).requests[r]?
    | _, _ => none
  | .lookup _ failed =>
    if task.phase = .lookup then some (s.lookupCache cfg t task failed) else none
  | .acquire _ =>
    if task.phase = .unlimited then
      ((s.limiters none).step (cfg.rpm none) (.acquire 30000000000)).map fun limiter =>
        (s.setLimiter none limiter).setPhase t
          { task with token := some (s.limiters none).requests.length } .waiting
    else none
  | .call _ =>
    match task.phase, task.token with
    | .waiting, some r =>
      s.acquired t task
        ({ s with sent := s.sent ++ [(r, task.sha256)] }.setPhase t task .calling)
        (s.limiters none).requests[r]?
    | _, _ => none
  | .reply _ result =>
    if task.phase = .calling then some (s.receive cfg t task result) else none
  | .store _ stored =>
    match task.phase with
    | .storing summary => some (s.store t task summary stored)
    | _ => none
  | _ => none

end VtGateway

/-- The task that the event is a step of. -/
def GatewayEvent.task : GatewayEvent → Option ℕ
  | .check t | .track t _ | .admittedUser t | .lookup t _ | .acquire t | .call t | .reply t _
  | .store t _ => some t
  | .clock _ | .arrive _ | .limiter _ _ | .evict => none

def VtGateway.step (cfg : VtConfig) (s : VtGateway) (e : GatewayEvent) : Option VtGateway :=
  match e.task with
  | some t => s.tasks[t]?.bind fun task => s.stepTask cfg t task e
  | none =>
    match e with
    | .clock passed => some { s with now := s.now + passed }
    | .arrive req => some { s with tasks := s.tasks ++ [⟨req, none, none, .received⟩] }
    | .limiter _ (.acquire _) => none
    | .limiter user_id act =>
      ((s.limiters user_id).step (cfg.rpm user_id) act).map (s.setLimiter user_id)
    | .evict => some { s with cache := s.cache.evictExpired cfg.cache_ttl s.now }
    | _ => none

end Arbeiterfarm.Tools.Vt
