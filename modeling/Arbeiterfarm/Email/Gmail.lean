import Arbeiterfarm.Core.Bytes
import Arbeiterfarm.Email.Scheduler

/-!
# The Gmail provider

The message is handed over as one text with its headers. The values of the headers hold no line
break, so that none of them ends a header early.
-/

namespace Arbeiterfarm.Email

inductive EmailError where
  | noCredentials (msg : String)
  | providerError (msg : String)
  | recipientBlocked (msg : String)
  | rateLimited (msg : String)
  | invalidInput (msg : String)
  | dbError (msg : String)
  deriving DecidableEq, Repr

/-- A message with the fields that make it a reply. -/
structure OutgoingMessage extends EmailMessage where
  in_reply_to : Option String := none
  references : Option String := none
  deriving DecidableEq

/-- The encodings and the clock. -/
structure MailLibs where
  base64 : String → String
  urlSafeBase64 : String → String
  nowRfc2822 : String

/-! ### The raw message -/

/-- Line breaks and NUL are removed. -/
def sanitizeHeaderValue (s : String) : String :=
  String.ofList (s.toList.filter fun c => c ≠ '\r' ∧ c ≠ '\n' ∧ c ≠ '\x00')

def addressList (addresses : List String) : String :=
  ", ".intercalate (addresses.map sanitizeHeaderValue)

/-- The headers that name the recipients. -/
def recipientHeaders (msg : OutgoingMessage) : List (String × String) :=
  [("To", addressList msg.to)] ++
    (if msg.cc.isEmpty then [] else [("Cc", addressList msg.cc)]) ++
    if msg.bcc.isEmpty then [] else [("Bcc", addressList msg.bcc)]

/-- The subject, encoded if it is not ASCII. -/
def subjectValue (libs : MailLibs) (subject : String) : String :=
  if subject.toList.all fun c => c.toNat < 128 then sanitizeHeaderValue subject
  else "=?UTF-8?B?" ++ libs.base64 subject ++ "?="

def optionalHeader (name : String) (value : Option String) : List (String × String) :=
  (value.map fun v => (name, sanitizeHeaderValue v)).toList

def messageHeaders (libs : MailLibs) (msg : OutgoingMessage) : List (String × String) :=
  [("From", sanitizeHeaderValue msg.from)] ++ recipientHeaders msg ++
    [("Subject", subjectValue libs msg.subject), ("Date", libs.nowRfc2822)] ++
    optionalHeader "In-Reply-To" msg.in_reply_to ++ optionalHeader "References" msg.references ++
    [("MIME-Version", "1.0"), ("Content-Type", "text/plain; charset=UTF-8"),
      ("Content-Transfer-Encoding", "8bit")]

def buildRawMessage (libs : MailLibs) (msg : OutgoingMessage) : String :=
  let header := fun p : String × String => p.1 ++ ": " ++ p.2 ++ "\r\n"
  libs.urlSafeBase64
    (String.join ((messageHeaders libs msg).map header) ++ "\r\n" ++ msg.body_text)

/-! ### Message ids -/

def isAsciiAlphanumeric (c : Char) : Bool :=
  let n := c.toNat
  (48 ≤ n && n ≤ 57) || (65 ≤ n && n ≤ 90) || (97 ≤ n && n ≤ 122)

/-- A message id that is safe in a URL; `none` stands for a panic. -/
def sanitizeMessageId (id : String) : Option (Except EmailError String) :=
  if id.toList.isEmpty then some (.error (.invalidInput "message_id is empty"))
  else if utf8Len id > 64 || !id.toList.all isAsciiAlphanumeric then
    (firstBytes id (min (utf8Len id) 32)).map fun start =>
      .error (.invalidInput ("message_id '" ++ start ++ "' contains invalid characters"))
  else some (.ok id)

lemma utf8Size_eq_one_of_alphanumeric {c : Char} (h : isAsciiAlphanumeric c) : c.utf8Size = 1 := by
  simp only [isAsciiAlphanumeric, Bool.or_eq_true, Bool.and_eq_true, decide_eq_true_eq] at h
  rw [utf8Size_eq_one_iff]
  omega

/-- The error about an id can be built if the id can be cut after 32 bytes. -/
lemma isSome_sanitizeMessageId (id : String) :
    (sanitizeMessageId id).isSome ↔ IsCharBoundary id (min (utf8Len id) 32) := by
  rw [sanitizeMessageId]
  by_cases hempty : id.toList.isEmpty
  · have hid : id.toList = [] := List.isEmpty_iff.mp hempty
    rw [if_pos hempty]
    simp [IsCharBoundary, utf8Len, hid, Foundation.Offsets.IsBoundary]
  rw [if_neg hempty]
  by_cases hbad : utf8Len id > 64 || !id.toList.all isAsciiAlphanumeric
  · rw [if_pos hbad, Option.isSome_map, isSome_firstBytes]
  · rw [if_neg hbad]
    simp only [Bool.or_eq_true, decide_eq_true_eq, Bool.not_eq_true', not_or, Bool.not_eq_false,
      List.all_eq_true] at hbad
    have hascii : ∀ c ∈ id.toList, c.utf8Size = 1 := fun c hc =>
      utf8Size_eq_one_of_alphanumeric (hbad.2 c hc)
    exact ⟨fun _ => isCharBoundary_of_ascii hascii (Nat.min_le_left _ _), fun _ => rfl⟩

end Arbeiterfarm.Email
