import Arbeiterfarm.Core.Json
import Arbeiterfarm.Foundation.Exec
import Arbeiterfarm.Foundation.Session
import Arbeiterfarm.Foundation.Table
import Mathlib.Data.List.Sort

/-!
# Scheduled e-mail

The table `email_scheduled` with its statements, and any number of ticks of any number of servers
that work through the messages that are due, statement by statement. Users schedule and cancel
messages at any time. A statement may fail, and it may also be executed without its answer
arriving; a tick may stop at any point.

A message is sent only if none of its recipients is blocked. Block rules win; without allow rules
everything else is allowed, with allow rules one of them has to match. `toLowercase` is the Unicode
lowercase mapping of strings.

Two history variables are read by no step: `handed` lists the messages that a provider has
accepted, `cancels` the cancellations that reported success.
-/

namespace Arbeiterfarm.Email

open Foundation

/-! ### Recipient rules -/

structure EmailRecipientRuleRow where
  rule_type : String
  pattern_type : String
  pattern : String
  deriving DecidableEq, Repr

inductive RuleResult where
  | allowed
  | blocked (reason : String)
  deriving DecidableEq, Repr

section

variable (toLowercase : String → String)

/-- `split('@').nth(1)`. -/
def domainOf (email : String) : Option (List Char) := (email.toList.splitOn '@')[1]?

def matchesEmailRule (email_lower : String) (rule : EmailRecipientRuleRow) : Bool :=
  let pattern_lower := toLowercase rule.pattern
  if rule.pattern_type = "exact_email" then email_lower = pattern_lower
  else if rule.pattern_type = "domain" then
    (domainOf email_lower).any (· = pattern_lower.toList)
  else if rule.pattern_type = "domain_suffix" then
    let suffix := pattern_lower.toList.dropWhile (· = '.')
    (domainOf email_lower).any fun domain => domain = suffix || ('.' :: suffix).isSuffixOf domain
  else false

/-- Evaluate a single address: block rules first, then the allow rules if there are any. -/
def evaluateRecipient (email : String) (rules : List EmailRecipientRuleRow) : RuleResult :=
  let email_lower := toLowercase email
  match (rules.filter (·.rule_type = "block")).find? (matchesEmailRule toLowercase email_lower) with
  | some rule =>
    .blocked ("'" ++ email ++ "' blocked by " ++ rule.pattern_type ++ " rule: " ++ rule.pattern)
  | none =>
    let allow_rules := rules.filter (·.rule_type = "allow")
    if allow_rules.isEmpty || allow_rules.any (matchesEmailRule toLowercase email_lower) then
      .allowed
    else .blocked ("'" ++ email ++ "' not matched by any allow rule")

/-- The first recipient that is blocked rejects the whole send. -/
def evaluateAllRecipients («to» cc bcc : List String) (rules : List EmailRecipientRuleRow) :
    Except String Unit :=
  («to» ++ cc ++ bcc).forM fun addr =>
    match evaluateRecipient toLowercase addr rules with
    | .allowed => .ok ()
    | .blocked reason => .error reason

end

/-! ### The table -/

/-- The values the `status` column admits. -/
inductive EmailStatus where
  | scheduled
  | sending
  | sent
  | failed
  | cancelled
  deriving DecidableEq, Repr

structure EmailScheduledRow where
  id : Uuid
  project_id : Uuid
  user_id : Option Uuid
  provider : String
  status : EmailStatus := .scheduled
  from_address : String
  to_addresses : Json
  cc_addresses : Option Json
  bcc_addresses : Option Json
  subject : String
  body_text : Option String
  body_html : Option String
  scheduled_at : ℤ
  error_message : Option String := none
  attempt_count : ℕ := 0
  max_attempts : ℕ := 3
  updated_at : ℤ
  sent_at : Option ℤ := none
  deriving DecidableEq, Repr

abbrev EmailTable := Table EmailScheduledRow.id

/-! ### The statements -/

/-- The columns that `create_scheduled` sets. -/
structure ScheduleRequest where
  project_id : Uuid
  user_id : Option Uuid
  provider : String
  from_address : String
  to_addresses : Json
  cc_addresses : Json
  bcc_addresses : Json
  subject : String
  body_text : Option String
  body_html : Option String
  scheduled_at : ℤ

def createScheduled (now : ℤ) (id : Uuid) (req : ScheduleRequest) (t : EmailTable) :
    Option EmailTable :=
  t.insert
    { id := id, project_id := req.project_id, user_id := req.user_id, provider := req.provider,
      from_address := req.from_address, to_addresses := req.to_addresses,
      cc_addresses := some req.cc_addresses, bcc_addresses := some req.bcc_addresses,
      subject := req.subject, body_text := req.body_text, body_html := req.body_html,
      scheduled_at := req.scheduled_at, updated_at := now }

/-- `ORDER BY scheduled_at`. -/
def DueLe (a b : EmailScheduledRow) : Prop := a.scheduled_at ≤ b.scheduled_at

instance : DecidableRel DueLe := fun a b => Int.decLe a.scheduled_at b.scheduled_at

def listDueScheduled (now : ℤ) (limit : ℕ) (t : EmailTable) : List EmailScheduledRow :=
  ((t.rows.filter fun r => r.status = .scheduled ∧ r.scheduled_at ≤ now).insertionSort DueLe).take
    limit

/-- `WHERE id = $1 AND status = 'scheduled'`. -/
def isScheduled (id : Uuid) (r : EmailScheduledRow) : Bool := r.id = id ∧ r.status = .scheduled

/-- The `SET` list of the two guarded statements. -/
def setStatus (now : ℤ) (status : EmailStatus) (r : EmailScheduledRow) : EmailScheduledRow :=
  { r with status := status, updated_at := now }

@[simp] lemma setStatus_id (now : ℤ) (status : EmailStatus) (r : EmailScheduledRow) :
    (setStatus now status r).id = r.id := rfl

/-- An update of the scheduled row `id`, and whether `rows_affected() > 0`. -/
def guardedUpdate (now : ℤ) (status : EmailStatus) (id : Uuid) (t : EmailTable) :
    Bool × EmailTable :=
  (t.rows.countP (isScheduled id) > 0,
    t.update (isScheduled id) (setStatus now status) (setStatus_id now status))

def claimScheduled (now : ℤ) : Uuid → EmailTable → Bool × EmailTable := guardedUpdate now .sending

def cancelScheduled (now : ℤ) : Uuid → EmailTable → Bool × EmailTable :=
  guardedUpdate now .cancelled

/-- The `SET` list of `complete_scheduled`. -/
def markSent (now : ℤ) (r : EmailScheduledRow) : EmailScheduledRow :=
  { r with status := .sent, sent_at := some now, updated_at := now, error_message := none }

@[simp] lemma markSent_id (now : ℤ) (r : EmailScheduledRow) : (markSent now r).id = r.id := rfl

def completeScheduled (now : ℤ) (id : Uuid) (t : EmailTable) : EmailTable :=
  t.update (·.id = id) (markSent now) (markSent_id now)

/-- The `SET` list of `fail_scheduled`. -/
def markAttempt (now : ℤ) (error_msg : String) (r : EmailScheduledRow) : EmailScheduledRow :=
  { r with
    attempt_count := r.attempt_count + 1
    error_message := some error_msg
    status := if r.attempt_count + 1 ≥ r.max_attempts then .failed else .scheduled
    updated_at := now }

@[simp] lemma markAttempt_id (now : ℤ) (error_msg : String) (r : EmailScheduledRow) :
    (markAttempt now error_msg r).id = r.id := rfl

def failScheduled (now : ℤ) (id : Uuid) (error_msg : String) (t : EmailTable) : EmailTable :=
  t.update (·.id = id) (markAttempt now error_msg) (markAttempt_id now error_msg)

/-! ### Preparing a message -/

structure EmailMessage where
  «from» : String
  «to» : List String
  cc : List String
  bcc : List String
  subject : String
  body_text : String
  body_html : Option String
  deriving DecidableEq, Repr

/-- The strings of a JSON array. -/
def addresses (v : Option Json) : List String :=
  ((v.bind Json.asArray).map (·.filterMap Json.asStr)).getD []

/-- What the lookups between the claim and the send have answered: the credentials of the user,
if there are any, and the recipient rules of the project. -/
structure Lookups where
  credential : Except String (Option Json)
  rules : Except String (List EmailRecipientRuleRow)

/-- The message to send and the credentials to send it with, or the error to record. -/
def prepare (toLowercase : String → String) (lookups : Lookups) (r : EmailScheduledRow) :
    Except String (EmailMessage × Json) := do
  let cred ← match r.user_id with
    | some _ => lookups.credential.mapError ("failed to load credentials: " ++ ·)
    | none => .ok none
  let cred ← match cred with
    | some c => .ok c
    | none => .error "no credentials found for scheduled email"
  if r.provider ≠ "gmail" ∧ r.provider ≠ "protonmail" then
    .error ("unknown provider '" ++ r.provider ++ "'")
  let «to» := addresses (some r.to_addresses)
  let cc := addresses r.cc_addresses
  let bcc := addresses r.bcc_addresses
  let rules ← lookups.rules.mapError ("failed to load recipient rules: " ++ ·)
  (evaluateAllRecipients toLowercase «to» cc bcc rules).mapError
    ("recipient blocked at send time: " ++ ·)
  return (⟨r.from_address, «to», cc, bcc, r.subject, r.body_text.getD "", r.body_html⟩, cred)

/-! ### Ticks -/

abbrev TickId := ℕ

/-- Where a tick stands. The rows are copies that `list_due_scheduled` has returned. -/
inductive TickPhase where
  | idle
  | claiming (due : List EmailScheduledRow)
  | preparing (r : EmailScheduledRow) (due : List EmailScheduledRow)
  | failing (r : EmailScheduledRow) (error_msg : String) (due : List EmailScheduledRow)
  | sending (r : EmailScheduledRow) (msg : EmailMessage) (credentials : Json)
      (due : List EmailScheduledRow)
  | completing (r : EmailScheduledRow) (due : List EmailScheduledRow)

structure Mailer where
  now : ℤ
  rows : EmailTable
  ticks : TickId → TickPhase
  handed : List Uuid
  cancels : List Uuid

def Mailer.init : Mailer := ⟨0, Table.empty _, fun _ => .idle, [], []⟩

def Mailer.setTick (s : Mailer) (k : TickId) (phase : TickPhase) : Mailer :=
  { s with ticks := Function.update s.ticks k phase }

inductive MailAction where
  | clock (d : ℕ)
  | schedule (id : Uuid) (req : ScheduleRequest)
  | cancel (id : Uuid) (e : Execution)
  | listDue (k : TickId)
  | claim (k : TickId) (e : Execution)
  | prepare (k : TickId) (lookups : Lookups)
  | send (k : TickId) (result : Except String String)
  | complete (k : TickId) (e : Execution)
  | fail (k : TickId) (e : Execution)
  | crash (k : TickId)

section Step

variable (toLowercase : String → String)

/-- The cancellation of a user reports success when a row was updated. -/
def cancelMail (s : Mailer) (id : Uuid) (e : Execution) : Mailer :=
  let (changed, rows) := cancelScheduled s.now id s.rows
  { s with
    rows := e.apply s.rows rows
    cancels := if e = Execution.answered ∧ changed then s.cancels ++ [id] else s.cancels }

lemma cancels_cancelMail (s : Mailer) (id : Uuid) (e : Execution) :
    (cancelMail s id e).cancels = if e = .answered ∧ (cancelScheduled s.now id s.rows).1 then
      s.cancels ++ [id] else s.cancels := rfl

/-- Claim the next message that is due, or skip it. -/
def claimMail (s : Mailer) (k : TickId) (e : Execution) : Option Mailer :=
  match s.ticks k with
  | .claiming (r :: due) =>
    let (claimed, rows) := claimScheduled s.now r.id s.rows
    some ({ s with rows := e.apply s.rows rows }.setTick k
      (if e = Execution.answered ∧ claimed then .preparing r due else .claiming due))
  | _ => none

def prepareMail (s : Mailer) (k : TickId) (lookups : Lookups) : Option Mailer :=
  match s.ticks k with
  | .preparing r due =>
    match prepare toLowercase lookups r with
    | .ok (msg, credentials) => some (s.setTick k (.sending r msg credentials due))
    | .error e => some (s.setTick k (.failing r e due))
  | _ => none

/-- `provider.send`. -/
def sendMail (s : Mailer) (k : TickId) (result : Except String String) : Option Mailer :=
  match s.ticks k with
  | .sending r _ _ due =>
    match result with
    | .ok _ => some { s.setTick k (.completing r due) with handed := s.handed ++ [r.id] }
    | .error e => some (s.setTick k (.failing r e due))
  | _ => none

def completeMail (s : Mailer) (k : TickId) (e : Execution) : Option Mailer :=
  match s.ticks k with
  | .completing r due =>
    some ({ s with rows := e.apply s.rows (completeScheduled s.now r.id s.rows) }.setTick k
      (.claiming due))
  | _ => none

def failMail (s : Mailer) (k : TickId) (e : Execution) : Option Mailer :=
  match s.ticks k with
  | .failing r error_msg due =>
    some ({ s with rows := e.apply s.rows (failScheduled s.now r.id error_msg s.rows) }.setTick k
      (.claiming due))
  | _ => none

/-- One statement, send or decision of one party. -/
def Mailer.step (s : Mailer) : MailAction → Option Mailer
  | .clock d => some { s with now := s.now + d }
  | .schedule id req =>
    (createScheduled s.now id req s.rows).map fun rows => { s with rows := rows }
  | .cancel id e => some (cancelMail s id e)
  | .listDue k =>
    match s.ticks k with
    | .idle | .claiming [] => some (s.setTick k (.claiming (listDueScheduled s.now 50 s.rows)))
    | _ => none
  | .claim k e => claimMail s k e
  | .prepare k lookups => prepareMail toLowercase s k lookups
  | .send k result => sendMail s k result
  | .complete k e => completeMail s k e
  | .fail k e => failMail s k e
  | .crash k => some (s.setTick k .idle)

end Step

/-! ### What a step can do -/

/-- The row with a given primary key. -/
def get (id : Uuid) (t : EmailTable) : Option EmailScheduledRow := t.lookup id

lemma id_of_get {id : Uuid} {t : EmailTable} {r : EmailScheduledRow} (h : get id t = some r) :
    r.id = id := Table.key_of_lookup h

@[simp] lemma get_guardedUpdate (now : ℤ) (status : EmailStatus) (id id' : Uuid)
    (t : EmailTable) : get id' (guardedUpdate now status id t).2 = (get id' t).map fun r =>
      if isScheduled id r then setStatus now status r else r := by
  simp [get, guardedUpdate]

@[simp] lemma get_completeScheduled (now : ℤ) (id id' : Uuid) (t : EmailTable) :
    get id' (completeScheduled now id t) = (get id' t).map fun r =>
      if r.id = id then markSent now r else r := by
  simp [get, completeScheduled]

@[simp] lemma get_failScheduled (now : ℤ) (id id' : Uuid) (error_msg : String)
    (t : EmailTable) : get id' (failScheduled now id error_msg t) = (get id' t).map fun r =>
      if r.id = id then markAttempt now error_msg r else r := by
  simp [get, failScheduled]

lemma get_apply (e : Execution) (id : Uuid) (t t' : EmailTable) :
    get id (e.apply t t') = if e = .failed then get id t else get id t' := by
  cases e <;> rfl

lemma isScheduled_iff {id : Uuid} {r : EmailScheduledRow} :
    isScheduled id r ↔ r.id = id ∧ r.status = .scheduled := by
  simp [isScheduled]

/-- A guarded statement reports success when it finds the row scheduled. -/
lemma guardedUpdate_fst {now : ℤ} {status : EmailStatus} {id : Uuid} {t : EmailTable} :
    (guardedUpdate now status id t).1 ↔ ∃ r, get id t = some r ∧ r.status = .scheduled := by
  simp only [guardedUpdate, gt_iff_lt, List.countP_pos_iff, decide_eq_true_eq, isScheduled_iff]
  constructor
  · rintro ⟨r, hr, rfl, hst⟩
    exact ⟨r, Table.lookup_of_mem hr, hst⟩
  · rintro ⟨r, hr, hst⟩
    exact ⟨r, (Table.lookup_eq_some_iff.mp hr).1, id_of_get hr, hst⟩

/-- The message a tick is busy with. -/
def TickPhase.current : TickPhase → Option EmailScheduledRow
  | .idle | .claiming _ => none
  | .preparing r _ | .failing r _ _ | .sending r _ _ _ | .completing r _ => some r

/-- The steps, with the facts each of them rests on. -/
inductive MailRule (s : Mailer) : MailAction → Mailer → Prop
  | clock (d) : MailRule s (.clock d) { s with now := s.now + d }
  | schedule (id req rows) (h : createScheduled s.now id req s.rows = some rows) :
    MailRule s (.schedule id req) { s with rows := rows }
  | cancel (id e) : MailRule s (.cancel id e) (cancelMail s id e)
  | listDue (k due) (hfree : (s.ticks k).current = none) :
    MailRule s (.listDue k) (s.setTick k (.claiming due))
  | claimed (k r due) (htick : s.ticks k = .claiming (r :: due))
    (hclaim : (claimScheduled s.now r.id s.rows).1) :
    MailRule s (.claim k .answered)
      ({ s with rows := (claimScheduled s.now r.id s.rows).2 }.setTick k (.preparing r due))
  | skipped (k r due e) (htick : s.ticks k = .claiming (r :: due)) :
    MailRule s (.claim k e)
      ({ s with rows := e.apply s.rows (claimScheduled s.now r.id s.rows).2 }.setTick k
        (.claiming due))
  | prepared (k r due lookups msg credentials) (htick : s.ticks k = .preparing r due) :
    MailRule s (.prepare k lookups) (s.setTick k (.sending r msg credentials due))
  | blocked (k r due lookups e) (htick : s.ticks k = .preparing r due) :
    MailRule s (.prepare k lookups) (s.setTick k (.failing r e due))
  | handed (k r msg credentials due provider_message_id)
    (htick : s.ticks k = .sending r msg credentials due) :
    MailRule s (.send k (.ok provider_message_id))
      { s.setTick k (.completing r due) with handed := s.handed ++ [r.id] }
  | refused (k r msg credentials due e) (htick : s.ticks k = .sending r msg credentials due) :
    MailRule s (.send k (.error e)) (s.setTick k (.failing r e due))
  | complete (k r due e) (htick : s.ticks k = .completing r due) :
    MailRule s (.complete k e)
      ({ s with rows := e.apply s.rows (completeScheduled s.now r.id s.rows) }.setTick k
        (.claiming due))
  | fail (k r error_msg due e) (htick : s.ticks k = .failing r error_msg due) :
    MailRule s (.fail k e)
      ({ s with rows := e.apply s.rows (failScheduled s.now r.id error_msg s.rows) }.setTick k
        (.claiming due))
  | crash (k) : MailRule s (.crash k) (s.setTick k .idle)

lemma MailRule.of_step {toLowercase : String → String} {s t : Mailer} {a : MailAction}
    (h : s.step toLowercase a = some t) : MailRule s a t := by
  cases a with
  | clock d =>
    obtain rfl := Option.some.inj h
    exact .clock d
  | schedule id req =>
    obtain ⟨rows, hrows, rfl⟩ := Option.map_eq_some_iff.mp h
    exact .schedule id req rows hrows
  | cancel id e =>
    obtain rfl := Option.some.inj h
    exact .cancel id e
  | listDue k =>
    simp only [Mailer.step] at h
    split at h
    · rename_i htick
      obtain rfl := Option.some.inj h
      exact .listDue k _ (by rw [htick]; rfl)
    · rename_i htick
      obtain rfl := Option.some.inj h
      exact .listDue k _ (by rw [htick]; rfl)
    · cases h
  | claim k e =>
    simp only [Mailer.step, claimMail] at h
    split at h
    · rename_i r due htick
      split_ifs at h with hclaim
      · obtain ⟨rfl, hclaim⟩ := hclaim
        obtain rfl := Option.some.inj h
        exact .claimed k r due htick hclaim
      · obtain rfl := Option.some.inj h
        exact .skipped k r due e htick
    · cases h
  | prepare k lookups =>
    simp only [Mailer.step, prepareMail] at h
    split at h
    · rename_i r due htick
      split at h
      · obtain rfl := Option.some.inj h
        exact .prepared k r due lookups _ _ htick
      · obtain rfl := Option.some.inj h
        exact .blocked k r due lookups _ htick
    · cases h
  | send k result =>
    simp only [Mailer.step, sendMail] at h
    split at h
    · rename_i r msg credentials due htick
      cases result with
      | ok provider_message_id =>
        obtain rfl := Option.some.inj h
        exact .handed k r msg credentials due provider_message_id htick
      | error e =>
        obtain rfl := Option.some.inj h
        exact .refused k r msg credentials due e htick
    · cases h
  | complete k e =>
    simp only [Mailer.step, completeMail] at h
    split at h
    · rename_i r due htick
      obtain rfl := Option.some.inj h
      exact .complete k r due e htick
    · cases h
  | fail k e =>
    simp only [Mailer.step, failMail] at h
    split at h
    · rename_i r error_msg due htick
      obtain rfl := Option.some.inj h
      exact .fail k r error_msg due e htick
    · cases h
  | crash k =>
    obtain rfl := Option.some.inj h
    exact .crash k

end Arbeiterfarm.Email
