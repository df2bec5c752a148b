import Arbeiterfarm.Core.Text
import Arbeiterfarm.Email.Gmail
import Arbeiterfarm.Foundation.Fallible
import Arbeiterfarm.Jobs.Worker

/-!
# Sending e-mail

The executor of `email.send` checks the recipients as they are written. The provider places them in
the headers of the message, where a mail server reads mailboxes from them.
-/

namespace Arbeiterfarm.Email

open Foundation.Fallible
open Jobs (ToolError)

/-! ### The executor -/

def toolErr (code msg : String) (retryable : Bool) : ToolError := ⟨code, msg, retryable, .null⟩

/-- The input of `email.send` after the defaults are filled in. -/
structure SendInput where
  «to» : List String
  cc : List String
  bcc : List String
  subject : String
  body : String
  dry_run : Bool

/-- The limits of the executor, and the answers of the services that it asks. -/
structure SendEnv where
  max_recipients : ℕ
  max_body_bytes : ℕ
  rate_limit : Except ToolError Unit
  rules : Option (List EmailRecipientRuleRow)
  tone : Except String Unit
  /-- The name of the provider and the address of the sender. -/
  credentials : Except ToolError (String × String)

def isControl (c : Char) : Bool := c = '\r' ∨ c = '\n' ∨ c = '\x00'

/-- Addresses with control characters are refused. -/
def validateAddresses (addresses : List String) : Except ToolError Unit :=
  match addresses.find? fun addr => addr.toList.any isControl with
  | some addr =>
    .error (toolErr "invalid_input" ("email address contains control characters: " ++
      String.ofList (addr.toList.take 50)) false)
  | none => .ok ()

def checkToNotEmpty («to» : List String) : Except ToolError Unit :=
  if «to».isEmpty then
    .error (toolErr "invalid_input" "'to' must contain at least one recipient" false)
  else .ok ()

def checkBodySize (env : SendEnv) (body : String) : Except ToolError Unit :=
  let max := env.max_body_bytes
  if utf8Len body > max then
    .error (toolErr "body_too_large" s!"body exceeds {max} bytes" false)
  else .ok ()

section

variable (toLowercase : String → String)

def checkRecipients (env : SendEnv) («to» cc bcc : List String) : Except ToolError Unit :=
  let total := «to».length + cc.length + bcc.length
  let max := env.max_recipients
  if total > max then
    .error (toolErr "too_many_recipients"
      s!"total recipients ({total}) exceeds limit ({max})" false)
  else
    match env.rules with
    | none =>
      .error (toolErr "rule_error" "failed to load recipient rules — send blocked for safety" true)
    | some rules =>
      (evaluateAllRecipients toLowercase «to» cc bcc rules).mapError
        (toolErr "recipient_blocked" · false)

def checkProvider (name : String) : Except ToolError Unit :=
  if name = "gmail" ∨ name = "protonmail" then .ok ()
  else .error (toolErr "invalid_provider"
    ("unknown provider '" ++ name ++ "', expected 'gmail' or 'protonmail'") false)

def sendMessage (input : SendInput) (sender : String) : OutgoingMessage where
  «from» := sender
  «to» := input.to
  cc := input.cc
  bcc := input.bcc
  subject := input.subject
  body_text := input.body
  body_html := none

/-- The message that the provider is handed; a dry run hands over none. -/
def send (env : SendEnv) (input : SendInput) : Except ToolError (Option OutgoingMessage) := do
  checkToNotEmpty input.to
  validateAddresses input.to
  validateAddresses input.cc
  validateAddresses input.bcc
  checkBodySize env input.body
  env.rate_limit
  checkRecipients toLowercase env input.to input.cc input.bcc
  env.tone.mapError (toolErr "invalid_tone" · false)
  let (provider, sender) ← env.credentials
  checkProvider provider
  .ok (if input.dry_run then none else some (sendMessage input sender))

/-! ### Mailboxes -/

/-- A mailbox that a mail server reads from a header. -/
structure Mailbox where
  local_part : String
  domain : String
  deriving DecidableEq

def Mailbox.address (m : Mailbox) : String := m.local_part ++ "@" ++ m.domain

/-- The rule is about the mailbox. -/
def mailboxMatches (m : Mailbox) (rule : EmailRecipientRuleRow) : Bool :=
  let pattern_lower := toLowercase rule.pattern
  let domain := (toLowercase m.domain).toList
  if rule.pattern_type = "exact_email" then toLowercase m.address = pattern_lower
  else if rule.pattern_type = "domain" then domain = pattern_lower.toList
  else if rule.pattern_type = "domain_suffix" then
    let suffix := pattern_lower.toList.dropWhile (· = '.')
    domain = suffix || ('.' :: suffix).isSuffixOf domain
  else false

def recipients (input : SendInput) : List String := input.to ++ input.cc ++ input.bcc

/-- A recipient is the mailbox as it is, and the domain of one is that of the mailbox. -/
def WrittenBare (input : SendInput) (m : Mailbox) : Prop :=
  (∃ r ∈ recipients input, toLowercase r = toLowercase m.address) ∧
    ∃ r ∈ recipients input, domainOf (toLowercase r) = some (toLowercase m.domain).toList

/-- The recipients are refused before any rule is asked. -/
def RefusedOutright (max_recipients : ℕ) (input : SendInput) : Prop :=
  input.to = [] ∨ (∃ r ∈ recipients input, r.toList.any isControl) ∨
    (recipients input).length > max_recipients

/-! ### Checks that succeed -/

lemma validateAddresses_eq_ok_iff (addresses : List String) :
    validateAddresses addresses = .ok () ↔ ∀ r ∈ addresses, ¬ r.toList.any isControl := by
  rw [validateAddresses]
  cases h : addresses.find? fun addr => addr.toList.any isControl with
  | none =>
    rw [List.find?_eq_none] at h
    exact ⟨fun _ => h, fun _ => rfl⟩
  | some addr =>
    refine ⟨fun hok => (nomatch hok), fun hall => ?_⟩
    exact absurd (List.find?_some h) (hall addr (List.mem_of_find?_eq_some h))

lemma checkToNotEmpty_eq_ok_iff («to» : List String) :
    checkToNotEmpty «to» = .ok () ↔ «to» ≠ [] := by
  cases «to» with
  | nil => simp [checkToNotEmpty]
  | cons r rs => simp [checkToNotEmpty]

lemma checkBodySize_eq_ok_iff (env : SendEnv) (body : String) :
    checkBodySize env body = .ok () ↔ utf8Len body ≤ env.max_body_bytes := by
  rw [checkBodySize]
  by_cases h : utf8Len body > env.max_body_bytes
  · simp [h]
  · simpa [h] using Nat.le_of_not_lt h

lemma evaluateRecipient_eq_allowed_iff_of_block {rules : List EmailRecipientRuleRow}
    (hblock : ∀ rule ∈ rules, rule.rule_type = "block") (email : String) :
    evaluateRecipient toLowercase email rules = .allowed ↔
      ∀ rule ∈ rules, ¬ matchesEmailRule toLowercase (toLowercase email) rule := by
  have hallow : rules.filter (·.rule_type = "allow") = [] :=
    List.filter_eq_nil_iff.mpr fun rule hrule => by simp [hblock rule hrule]
  have hall : rules.filter (·.rule_type = "block") = rules :=
    List.filter_eq_self.mpr fun rule hrule => by simp [hblock rule hrule]
  rw [evaluateRecipient, hall, hallow]
  cases hfind : rules.find? (matchesEmailRule toLowercase (toLowercase email)) with
  | none =>
    rw [List.find?_eq_none] at hfind
    exact ⟨fun _ => hfind, fun _ => rfl⟩
  | some rule =>
    refine ⟨fun h => (nomatch h), fun hnone => ?_⟩
    exact absurd (List.find?_some hfind) (hnone rule (List.mem_of_find?_eq_some hfind))

/-- An allowed recipient matches no block rule. -/
lemma not_matches_of_allowed {rules : List EmailRecipientRuleRow} {email : String}
    (h : evaluateRecipient toLowercase email rules = .allowed) {rule : EmailRecipientRuleRow}
    (hrule : rule ∈ rules) (hblock : rule.rule_type = "block") :
    ¬ matchesEmailRule toLowercase (toLowercase email) rule := by
  intro hmatches
  rw [evaluateRecipient] at h
  cases hfind : (rules.filter (·.rule_type = "block")).find?
      (matchesEmailRule toLowercase (toLowercase email)) with
  | some r =>
    rw [hfind] at h
    cases h
  | none =>
    rw [List.find?_eq_none] at hfind
    exact hfind rule (List.mem_filter.mpr ⟨hrule, decide_eq_true hblock⟩) hmatches

lemma evaluateAllRecipients_eq_ok_iff («to» cc bcc : List String)
    (rules : List EmailRecipientRuleRow) :
    evaluateAllRecipients toLowercase «to» cc bcc rules = .ok () ↔
      ∀ r ∈ «to» ++ cc ++ bcc, evaluateRecipient toLowercase r rules = .allowed := by
  rw [evaluateAllRecipients]
  induction «to» ++ cc ++ bcc with
  | nil => simp [pure, Except.pure]
  | cons r rs ih =>
    rw [List.forM, bind_eq_ok, List.forall_mem_cons]
    cases evaluateRecipient toLowercase r rules with
    | allowed => simpa using ih
    | blocked reason => simp

lemma checkRecipients_eq_ok_iff (env : SendEnv) (input : SendInput) :
    checkRecipients toLowercase env input.to input.cc input.bcc = .ok () ↔
      (recipients input).length ≤ env.max_recipients ∧ ∃ rules, env.rules = some rules ∧
        ∀ r ∈ recipients input, evaluateRecipient toLowercase r rules = .allowed := by
  have hlength : (recipients input).length =
      input.to.length + input.cc.length + input.bcc.length := by
    simp [recipients, Nat.add_assoc]
  rw [checkRecipients, hlength]
  by_cases h : input.to.length + input.cc.length + input.bcc.length > env.max_recipients
  · simp only [if_pos h]
    exact ⟨fun hok => (nomatch hok), fun hle => absurd hle.1 (Nat.not_le_of_lt h)⟩
  · simp only [if_neg h]
    cases env.rules with
    | none => simp
    | some rules =>
      simp only [mapError_eq_ok, evaluateAllRecipients_eq_ok_iff, Option.some.injEq,
        exists_eq_left', recipients]
      exact ⟨fun hall => ⟨Nat.le_of_not_lt h, hall⟩, fun hall => hall.2⟩

/-- What a send that succeeds has checked about the recipients. -/
lemma not_refused_of_send {env : SendEnv} {input : SendInput} {msg : Option OutgoingMessage}
    (h : send toLowercase env input = .ok msg) : ¬ RefusedOutright env.max_recipients input ∧
      ∃ rules, env.rules = some rules ∧
        ∀ r ∈ recipients input, evaluateRecipient toLowercase r rules = .allowed := by
  simp only [send, bind_eq_ok] at h
  obtain ⟨_, hto, _, hvto, _, hvcc, _, hvbcc, _, -, _, -, _, hrecipients, -⟩ := h
  rw [checkToNotEmpty_eq_ok_iff] at hto
  rw [validateAddresses_eq_ok_iff] at hvto hvcc hvbcc
  rw [checkRecipients_eq_ok_iff] at hrecipients
  refine ⟨?_, hrecipients.2⟩
  rintro (hempty | ⟨r, hr, hcontrol⟩ | hmany)
  · exact hto hempty
  · rw [recipients, List.mem_append, List.mem_append] at hr
    rcases hr with (hr | hr) | hr
    · exact hvto r hr hcontrol
    · exact hvcc r hr hcontrol
    · exact hvbcc r hr hcontrol
  · exact absurd hrecipients.1 (Nat.not_le_of_lt hmany)

/-! ### A matching mailbox -/

/-- A mailbox that is written bare matches only what one of the recipients matches. -/
lemma WrittenBare.exists_matches {input : SendInput} {m : Mailbox}
    (h : WrittenBare toLowercase input m) {rule : EmailRecipientRuleRow}
    (hrule : mailboxMatches toLowercase m rule) :
    ∃ r ∈ recipients input, matchesEmailRule toLowercase (toLowercase r) rule := by
  obtain ⟨⟨r, hr, haddress⟩, r', hr', hdomain⟩ := h
  rw [mailboxMatches] at hrule
  by_cases hexact : rule.pattern_type = "exact_email"
  · refine ⟨r, hr, ?_⟩
    rw [matchesEmailRule, if_pos hexact, haddress]
    simpa [hexact] using hrule
  · refine ⟨r', hr', ?_⟩
    rw [matchesEmailRule, if_neg hexact, hdomain]
    simpa [hexact] using hrule

/-- All services answer, and there is one rule. -/
def soleRule (max_recipients : ℕ) (input : SendInput) (rule : EmailRecipientRuleRow) : SendEnv where
  max_recipients := max_recipients
  max_body_bytes := utf8Len input.body
  rate_limit := .ok ()
  rules := some [rule]
  tone := .ok ()
  credentials := .ok ("gmail", "")

/-- A block rule that matches no recipient does not stop the message. -/
lemma send_soleRule {max_recipients : ℕ} {input : SendInput} {rule : EmailRecipientRuleRow}
    (hopen : ¬ RefusedOutright max_recipients input) (hblock : rule.rule_type = "block")
    (hrule : ∀ r ∈ recipients input, ¬ matchesEmailRule toLowercase (toLowercase r) rule) :
    ∃ msg, send toLowercase (soleRule max_recipients input rule) input = .ok msg := by
  simp only [RefusedOutright, not_or, not_exists, not_and, recipients, List.mem_append] at hopen
  obtain ⟨hto, hcontrol, hmany⟩ := hopen
  refine ⟨if input.dry_run then none else some (sendMessage input ""), ?_⟩
  simp only [send, bind_eq_ok, mapError_eq_ok]
  refine ⟨(), (checkToNotEmpty_eq_ok_iff _).mpr hto,
    (), (validateAddresses_eq_ok_iff _).mpr fun r hr => hcontrol r (.inl (.inl hr)),
    (), (validateAddresses_eq_ok_iff _).mpr fun r hr => hcontrol r (.inl (.inr hr)),
    (), (validateAddresses_eq_ok_iff _).mpr fun r hr => hcontrol r (.inr hr),
    (), (checkBodySize_eq_ok_iff _ _).mpr (Nat.le_refl _), (), rfl,
    (), (checkRecipients_eq_ok_iff toLowercase _ input).mpr ⟨Nat.le_of_not_lt hmany, _, rfl, ?_⟩,
    (), rfl, ("gmail", ""), rfl, (), rfl, rfl⟩
  intro r hr
  rw [evaluateRecipient_eq_allowed_iff_of_block toLowercase (by simpa using hblock)]
  simpa using hrule r hr

variable (mailboxes : String → List Mailbox)

/-- The mailboxes that the headers of the message name. -/
def namedMailboxes (input : SendInput) : List Mailbox :=
  (recipientHeaders (sendMessage input "")).flatMap fun header => mailboxes header.2

/-- Whatever the rules are, a message with a mailbox that a block rule matches is not sent, exactly
if all mailboxes are written bare or the recipients are refused without regard to the rules. -/
theorem matching_mailbox_blocked_iff (max_recipients : ℕ) (input : SendInput) :
    (∀ env : SendEnv, env.max_recipients = max_recipients →
      ∀ rules, env.rules = some rules → ∀ rule ∈ rules, rule.rule_type = "block" →
        ∀ m ∈ namedMailboxes mailboxes input, mailboxMatches toLowercase m rule →
          ∃ e, send toLowercase env input = .error e) ↔
    RefusedOutright max_recipients input ∨
      ∀ m ∈ namedMailboxes mailboxes input, WrittenBare toLowercase input m := by
  constructor
  · intro h
    by_cases hrefused : RefusedOutright max_recipients input
    · exact .inl hrefused
    refine .inr fun m hm => ?_
    -- a rule about the mailbox is one about a recipient, since the message would be sent otherwise
    have hrule : ∀ rule : EmailRecipientRuleRow, rule.rule_type = "block" →
        mailboxMatches toLowercase m rule →
          ∃ r ∈ recipients input, matchesEmailRule toLowercase (toLowercase r) rule := by
      intro rule hblock hmatches
      by_contra hnone
      push Not at hnone
      obtain ⟨msg, hsent⟩ := send_soleRule toLowercase hrefused hblock hnone
      obtain ⟨e, herror⟩ := h (soleRule max_recipients input rule) rfl [rule] rfl rule
        (List.mem_singleton_self rule) hblock m hm hmatches
      rw [hsent] at herror
      cases herror
    obtain ⟨r, hr, haddress⟩ :=
      hrule ⟨"block", "exact_email", m.address⟩ rfl (by simp [mailboxMatches])
    obtain ⟨r', hr', hdomain⟩ := hrule ⟨"block", "domain", m.domain⟩ rfl (by simp [mailboxMatches])
    refine ⟨⟨r, hr, by simpa [matchesEmailRule] using haddress⟩, r', hr', ?_⟩
    simpa [matchesEmailRule, Option.any_eq_true] using hdomain
  · rintro hcondition env rfl rules hrules rule hrule hblock m hm hmatches
    cases hsend : send toLowercase env input with
    | error e => exact ⟨e, rfl⟩
    | ok msg =>
      obtain ⟨hopen, rules', hrules', hallowed⟩ := not_refused_of_send toLowercase hsend
      obtain rfl : rules = rules' := Option.some.inj (hrules.symm.trans hrules')
      obtain ⟨r, hr, hmatch⟩ :=
        (hcondition.resolve_left hopen m hm).exists_matches toLowercase hmatches
      exact absurd hmatch (not_matches_of_allowed toLowercase (hallowed r hr) hrule hblock)

end

/-! ### A display name -/

/-- Mailboxes with or without a display name, for headers without quotes, comments and groups. -/
def readMailboxes (header : String) : List Mailbox :=
  (header.toList.splitOn ',').map fun entry =>
    let addr := match entry.dropWhile (· ≠ '<') with
      | [] => trim entry
      | _ :: rest => rest.takeWhile (· ≠ '>')
    let domain := (addr.reverse.takeWhile (· ≠ '@')).reverse
    ⟨String.ofList (addr.take (addr.length - domain.length - 1)), String.ofList domain⟩

def asciiLowercase (s : String) : String := String.ofList (s.toList.map Char.toLower)

def displayName : SendInput := ⟨["Eve <eve@evil.com>"], [], [], "", "", false⟩

/-- A mailbox with a display name gets past a rule about its domain. -/
theorem display_name_sent :
    send asciiLowercase (soleRule 10 displayName ⟨"block", "domain", "evil.com"⟩) displayName =
        .ok (some (sendMessage displayName "")) ∧
      namedMailboxes readMailboxes displayName = [⟨"eve", "evil.com"⟩] ∧
      mailboxMatches asciiLowercase ⟨"eve", "evil.com"⟩ ⟨"block", "domain", "evil.com"⟩ := by
  refine ⟨?_, ?_, ?_⟩
  · decide +kernel
  · decide +kernel
  · decide +kernel

end Arbeiterfarm.Email
