import Arbeiterfarm.Email.Gmail

/-!
# The headers of a message

A message is read by cutting its text at the line ends, up to the first empty line. What is read
from a message that was built is one line for each field that is there, and the text of the body.
-/

namespace Arbeiterfarm.Email

/-! ### Reading a message -/

/-- The header lines and the body; `line` is the current line, last character first. -/
def splitHeaders.go (line : List Char) : List Char → Option (List (List Char) × List Char)
  | [] => none
  | '\r' :: '\n' :: cs =>
    if line.isEmpty then some ([], cs)
    else (go [] cs).map fun (lines, body) => (line.reverse :: lines, body)
  | c :: cs => go (c :: line) cs

def splitHeaders (text : String) : Option (List (List Char) × List Char) :=
  splitHeaders.go [] text.toList

/-- The text that is encoded. -/
def rawText (libs : MailLibs) (msg : OutgoingMessage) : String :=
  String.join ((messageHeaders libs msg).map fun p => p.1 ++ ": " ++ p.2 ++ "\r\n") ++ "\r\n" ++
    msg.body_text

/-- The fields of a message that are present. -/
def fieldNames (msg : OutgoingMessage) : List String :=
  ["From", "To"] ++ (if msg.cc = [] then [] else ["Cc"]) ++
    (if msg.bcc = [] then [] else ["Bcc"]) ++ ["Subject", "Date"] ++
    (if msg.in_reply_to = none then [] else ["In-Reply-To"]) ++
    (if msg.references = none then [] else ["References"]) ++
    ["MIME-Version", "Content-Type", "Content-Transfer-Encoding"]

def headerLine (p : String × String) : List Char := (p.1 ++ ": " ++ p.2).toList

def NoLineBreak (cs : List Char) : Prop := '\r' ∉ cs ∧ '\n' ∉ cs

instance (cs : List Char) : Decidable (NoLineBreak cs) := instDecidableAnd

/-- The message is read as one header line for each field and the body as it is. -/
structure ReadsAsBuilt (libs : MailLibs) (msg : OutgoingMessage) : Prop where
  encoded : buildRawMessage libs msg = libs.urlSafeBase64 (rawText libs msg)
  names : (messageHeaders libs msg).map Prod.fst = fieldNames msg
  oneLine : ∀ p ∈ messageHeaders libs msg, NoLineBreak (headerLine p)
  split : splitHeaders (rawText libs msg) =
    some ((messageHeaders libs msg).map headerLine, msg.body_text.toList)

/-! ### Values without line breaks -/

lemma NoLineBreak.append {cs ds : List Char} (hcs : NoLineBreak cs) (hds : NoLineBreak ds) :
    NoLineBreak (cs ++ ds) := by
  simp only [NoLineBreak, List.mem_append, not_or]
  exact ⟨⟨hcs.1, hds.1⟩, hcs.2, hds.2⟩

lemma noLineBreak_sanitize (s : String) : NoLineBreak (sanitizeHeaderValue s).toList := by
  simp [NoLineBreak, sanitizeHeaderValue]

lemma noLineBreak_addressList (addresses : List String) :
    NoLineBreak (addressList addresses).toList := by
  have hintercalate (ls : List (List Char)) (h : ∀ l ∈ ls, NoLineBreak l) :
      NoLineBreak ([',', ' '].intercalate ls) := by
    induction ls with
    | nil => decide
    | cons l ls ih =>
      have hl := h l List.mem_cons_self
      have hrest := ih fun m hm => h m (List.mem_cons_of_mem l hm)
      cases ls with
      | nil => simpa using hl
      | cons m ls =>
        rw [List.intercalate_cons_cons]
        exact (hl.append (by decide)).append hrest
  rw [addressList, String.toList_intercalate]
  refine hintercalate _ fun l hl => ?_
  obtain ⟨v, hv, rfl⟩ := List.mem_map.mp hl
  obtain ⟨a, -, rfl⟩ := List.mem_map.mp hv
  exact noLineBreak_sanitize a

section

variable {libs : MailLibs} {msg : OutgoingMessage}

lemma noLineBreak_subject (hbase64 : ∀ s, NoLineBreak (libs.base64 s).toList) (subject : String) :
    NoLineBreak (subjectValue libs subject).toList := by
  rw [subjectValue]
  split_ifs
  · exact noLineBreak_sanitize subject
  · rw [String.toList_append, String.toList_append]
    exact (NoLineBreak.append (by decide) (hbase64 subject)).append (by decide)

/-- Every value is sanitized, encoded, the date or fixed. -/
lemma noLineBreak_header (hbase64 : ∀ s, NoLineBreak (libs.base64 s).toList)
    (hdate : NoLineBreak libs.nowRfc2822.toList) :
    ∀ p ∈ messageHeaders libs msg, NoLineBreak p.1.toList ∧ NoLineBreak p.2.toList := by
  have hoptional (name : String) (hname : NoLineBreak name.toList) (value : Option String) :
      ∀ p ∈ optionalHeader name value, NoLineBreak p.1.toList ∧ NoLineBreak p.2.toList := by
    intro p hp
    cases value with
    | none => cases hp
    | some v =>
      rw [optionalHeader, Option.map_some, Option.toList_some, List.mem_singleton] at hp
      rw [hp]
      exact ⟨hname, noLineBreak_sanitize v⟩
  have hlist (name : String) (hname : NoLineBreak name.toList) (addresses : List String) :
      ∀ p ∈ (if addresses.isEmpty then [] else [(name, addressList addresses)]),
        NoLineBreak p.1.toList ∧ NoLineBreak p.2.toList := by
    intro p hp
    split_ifs at hp
    · cases hp
    · rw [List.mem_singleton.mp hp]
      exact ⟨hname, noLineBreak_addressList addresses⟩
  rw [messageHeaders, recipientHeaders]
  simp only [List.forall_mem_append, List.forall_mem_cons]
  exact ⟨⟨⟨⟨⟨⟨⟨by decide, noLineBreak_sanitize _⟩, List.forall_mem_nil _⟩,
    ⟨⟨⟨by decide, noLineBreak_addressList _⟩, List.forall_mem_nil _⟩, hlist "Cc" (by decide) _⟩,
      hlist "Bcc" (by decide) _⟩,
    ⟨by decide, noLineBreak_subject hbase64 _⟩, ⟨by decide, hdate⟩, List.forall_mem_nil _⟩,
    hoptional "In-Reply-To" (by decide) _⟩, hoptional "References" (by decide) _⟩,
    by decide, by decide, by decide, List.forall_mem_nil _⟩

lemma map_fst_messageHeaders : (messageHeaders libs msg).map Prod.fst = fieldNames msg := by
  rw [messageHeaders, recipientHeaders, fieldNames]
  cases msg.cc <;> cases msg.bcc <;> cases msg.in_reply_to <;> cases msg.references <;>
    simp [optionalHeader]

end

/-! ### Lines -/

/-- A line without a carriage return ends at the next line end. -/
lemma go_line {line : List Char} (hline : '\r' ∉ line) (acc cs : List Char)
    (hne : acc.reverse ++ line ≠ []) : splitHeaders.go acc (line ++ '\r' :: '\n' :: cs) =
      (splitHeaders.go [] cs).map fun (lines, body) =>
        ((acc.reverse ++ line) :: lines, body) := by
  induction line generalizing acc with
  | nil =>
    have hacc : ¬acc.isEmpty := by simpa using hne
    rw [List.nil_append, splitHeaders.go, if_neg hacc, List.append_nil]
  | cons c line ih =>
    rw [List.mem_cons, not_or] at hline
    rw [List.cons_append, splitHeaders.go, ih hline.2 (c :: acc) (by simp)]
    · simp
    · rintro cs' rfl
      exact absurd rfl hline.1

lemma go_headers {headers : List (String × String)}
    (h : ∀ p ∈ headers, NoLineBreak (headerLine p)) (body : List Char) :
    splitHeaders.go [] ((headers.flatMap fun p => headerLine p ++ ['\r', '\n']) ++
      '\r' :: '\n' :: body) = some (headers.map headerLine, body) := by
  induction headers with
  | nil => rfl
  | cons p headers ih =>
    have hne : headerLine p ≠ [] := by simp [headerLine]
    have hcons (rest : List Char) : headerLine p ++ ['\r', '\n'] ++ rest =
        headerLine p ++ '\r' :: '\n' :: rest := List.append_assoc _ _ _
    rw [List.flatMap_cons, List.append_assoc, hcons,
      go_line (h p List.mem_cons_self).1 [] _ (by simpa using hne),
      ih fun q hq => h q (List.mem_cons_of_mem p hq)]
    rfl

lemma toList_rawText (libs : MailLibs) (msg : OutgoingMessage) : (rawText libs msg).toList =
    ((messageHeaders libs msg).flatMap fun p => headerLine p ++ ['\r', '\n']) ++
      '\r' :: '\n' :: msg.body_text.toList := by
  rw [rawText, String.toList_append, String.toList_append, String.toList_join, List.flatMap_map,
    List.append_assoc]
  simp [headerLine]

/-- Whatever the fields of a message hold, it is read as it was built. -/
theorem readsAsBuilt (libs : MailLibs) (msg : OutgoingMessage)
    (hbase64 : ∀ s, NoLineBreak (libs.base64 s).toList)
    (hdate : NoLineBreak libs.nowRfc2822.toList) : ReadsAsBuilt libs msg := by
  have hlines : ∀ p ∈ messageHeaders libs msg, NoLineBreak (headerLine p) := by
    intro p hp
    obtain ⟨hname, hvalue⟩ := noLineBreak_header hbase64 hdate p hp
    rw [headerLine, String.toList_append, String.toList_append]
    exact (hname.append (by decide)).append hvalue
  refine ⟨rfl, map_fst_messageHeaders, hlines, ?_⟩
  rw [splitHeaders, toList_rawText]
  exact go_headers hlines msg.body_text.toList

/-- The encodings of one subject and of one message. -/
def sampleLibs : MailLibs where
  base64 _ := "w6k="
  urlSafeBase64 _ :=
    "RnJvbTogYUBiLmNCY2M6IHhAeS56DQpUbzogZEBlLmYNClN1YmplY3Q6ID0_VVRGLTg_Qj93Nms9Pz0N" ++
    "CkRhdGU6IE1vbiwgMSBKYW4gMjAyNCAwMDowMDowMCArMDAwMA0KTUlNRS1WZXJzaW9uOiAxLjANCkNv" ++
    "bnRlbnQtVHlwZTogdGV4dC9wbGFpbjsgY2hhcnNldD1VVEYtOA0KQ29udGVudC1UcmFuc2Zlci1FbmNv" ++
    "ZGluZzogOGJpdA0KDQpIaQ0KDQpCeWU"
  nowRfc2822 := "Mon, 1 Jan 2024 00:00:00 +0000"

/-- A sender that would add a recipient. -/
def sampleMessage : OutgoingMessage where
  «from» := "a@b.c\r\nBcc: x@y.z"
  «to» := ["d@e.f"]
  cc := []
  bcc := []
  subject := "é"
  body_text := "Hi\r\n\r\nBye"
  body_html := none

theorem readsAsBuilt_sample : ReadsAsBuilt sampleLibs sampleMessage :=
  readsAsBuilt sampleLibs sampleMessage
    (fun _ => (by decide : NoLineBreak "w6k=".toList)) (by decide)

end Arbeiterfarm.Email
