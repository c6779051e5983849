import SeeedMote.Lib.CBytes
import SeeedMote.Lib.Dns

/-! The captive portal's name server, `dns_task` in `web_server.c`. A reply is the query with a few
    header bytes changed and one A record appended. The record goes behind everything the query
    holds, so with an additional section it is not where the header says the answer is.

        query   header qd=1 an=0 ns=0 ar=k │ question │ r₁ .. rₖ
        reply   header qd=1 an=1 ns=0 ar=k │ question │ r₁ │ r₂ .. rₖ  A 192.168.4.1
                                                        └ answer -/

namespace SeeedMote.Gateway
open Lib

/-- `sizeof(buf)` and `sizeof(resp)`. -/
def dnsBufSize : ℕ := 512
def dnsRespSize : ℕ := 528

/-- The record `dns_task` writes: pointer to the question's name, A, IN, 60 s, four bytes. -/
def portalRecord : List UInt8 :=
  [0xC0, 0x0C, 0x00, 0x01, 0x00, 0x01, 0x00, 0x00, 0x00, 0x3C, 0x00, 0x04, 192, 168, 4, 1]

/-- `resp[2] = 0x81; resp[3] = 0x80; resp[6] = 0x00; resp[7] = 0x01;` -/
def wrHeader (resp : List UInt8) : Mem (List UInt8) := do
  let resp ← wr resp 2 0x81
  let resp ← wr resp 3 0x80
  let resp ← wr resp 6 0x00
  wr resp 7 0x01

/-- One pass of the loop of `dns_task`: what it sends, `none` on `continue`. `stack` is what `resp` holds
    before. -/
def dnsTaskPass (stack : Vector UInt8 dnsRespSize) (datagram : List UInt8) :
    Mem (Option (List UInt8)) := do
  let buf := datagram.take dnsBufSize
  let n := buf.length
  if n < 12 then return none
  if n + 16 > dnsRespSize then return none
  let resp ← wrs stack.toList 0 buf
  let resp ← wrHeader resp
  let resp ← wrs resp n portalRecord
  return some (resp.take (n + portalRecord.length))

/-- The query with its flags and its answer count replaced. -/
def patchHeader : List UInt8 → List UInt8
  | i1 :: i0 :: _ :: _ :: q1 :: q0 :: _ :: _ :: rest =>
    i1 :: i0 :: 0x81 :: 0x80 :: q1 :: q0 :: 0x00 :: 0x01 :: rest
  | buf => buf

/-- The header writes, whatever follows the query in the buffer. -/
theorem wrHeader_ok {buf : List UInt8} (hlen : 12 ≤ buf.length) (post : List UInt8) :
    wrHeader (buf ++ post) = .ok (patchHeader buf ++ post) ∧
      (patchHeader buf).length = buf.length := by
  rcases buf with _ | ⟨i1, _ | ⟨i0, _ | ⟨f1, _ | ⟨f0, _ | ⟨q1, _ | ⟨q0, _ | ⟨a1, _ | ⟨a0, rest⟩⟩⟩⟩⟩⟩⟩⟩
  case cons.cons.cons.cons.cons.cons.cons.cons => exact ⟨by simp [wrHeader, wr, patchHeader], rfl⟩
  all_goals simp at hlen

/-- What `dns_task` sends; no write leaves the buffer. -/
theorem dnsTaskPass_eq (stack : Vector UInt8 dnsRespSize) (datagram : List UInt8) :
    dnsTaskPass stack datagram = .ok (
      if (datagram.take dnsBufSize).length < 12 then none
      else some (patchHeader (datagram.take dnsBufSize) ++ portalRecord)) := by
  have hle : (datagram.take dnsBufSize).length ≤ 512 := by
    rw [List.length_take]
    exact Nat.min_le_left _ _
  rw [dnsTaskPass]
  generalize datagram.take dnsBufSize = buf at hle ⊢
  by_cases hlen : buf.length < 12
  · rw [if_pos hlen, if_pos hlen]
    rfl
  · obtain ⟨hheader, hpatch⟩ := wrHeader_ok (Nat.not_lt.mp hlen) (stack.toList.drop buf.length)
    have hstack : stack.toList.length = 528 := stack.length_toList
    have hcopy := @wrs_ok buf [] (stack.toList.take buf.length) (stack.toList.drop buf.length)
      (by rw [List.length_take]; omega)
    rw [List.take_append_drop] at hcopy
    have hroom : 16 ≤ (stack.toList.drop buf.length).length := by
      rw [List.length_drop]
      omega
    have hrecord := @wrs_ok portalRecord (patchHeader buf)
      ((stack.toList.drop buf.length).take 16) ((stack.toList.drop buf.length).drop 16)
      (List.length_take_of_le hroom)
    rw [List.take_append_drop, hpatch] at hrecord
    rw [if_neg hlen, if_neg (by rw [dnsRespSize]; omega), if_neg hlen]
    have hcopy' : wrs stack.toList 0 buf = .ok (buf ++ stack.toList.drop buf.length) := hcopy
    have hsent : (patchHeader buf ++ (portalRecord ++ (stack.toList.drop buf.length).drop 16)).take
        (buf.length + portalRecord.length) = patchHeader buf ++ portalRecord := by
      rw [← List.append_assoc, ← hpatch, ← List.length_append, List.take_left]
    simp only [hcopy', hheader, hrecord, hsent, ok_bind]
    rfl

/-! ### The reply as a message -/

/-- A query with one question. -/
structure IsQuery (q : Dns.Message) (question : Dns.Question) : Prop where
  qr : q.qr = false
  questions : q.questions = [question]
  answers : q.answers = []
  authority : q.authority = []

/-- An A record for the name with address 192.168.4.1. -/
def IsPortalRecord (name : Dns.Name) (r : Dns.Record) : Prop :=
  r.name.Same name ∧ r.type = 1 ∧ r.cls = 1 ∧ r.rdata = [192, 168, 4, 1]

instance (name : Dns.Name) (r : Dns.Record) : Decidable (IsPortalRecord name r) :=
  inferInstanceAs (Decidable (_ ∧ _ ∧ _ ∧ _))

/-- A response to the query with its question, whose answer is the portal's address. -/
def IsPortalReply (q : Dns.Message) (question : Dns.Question) (reply : List UInt8) : Prop :=
  ∃ m, Dns.parse reply = some m ∧ m.id = q.id ∧ m.questions = q.questions ∧ m.qr = true ∧
    ∃ r, m.answers = [r] ∧ IsPortalRecord question.name r

/-- The record that `portalRecord` is behind a body that begins with a question for `name`. -/
def portalAnswer (name : Dns.Name) : Dns.Record := ⟨name, 1, 1, 60, [192, 168, 4, 1]⟩

theorem readRecord_portal {body : List UInt8} {name : Dns.Name} {next : ℕ}
    (hname : Dns.readDomain body 0 = some (name, next)) :
    Dns.readRecord (body ++ portalRecord) body.length
      = some (portalAnswer name, (body ++ portalRecord).length) := by
  have hlen : (body ++ portalRecord).length = body.length + 16 := List.length_append
  have hdomain := @Dns.readDomain_atEnd body portalRecord name next hname
    (Dns.lt_of_readDomain hname) rfl rfl
  rw [hlen]
  refine Dns.bind_eq_some_iff.mpr ⟨name, _, hdomain, ?_⟩
  refine Dns.bind_eq_some_iff.mpr ⟨Dns.be16 0 1, _, Dns.readU16_atEnd body rfl rfl, ?_⟩
  refine Dns.bind_eq_some_iff.mpr ⟨Dns.be16 0 1, _, Dns.readU16_atEnd body rfl rfl, ?_⟩
  refine Dns.bind_eq_some_iff.mpr ⟨Dns.be16 0 0, _, Dns.readU16_atEnd body rfl rfl, ?_⟩
  refine Dns.bind_eq_some_iff.mpr ⟨Dns.be16 0 60, _, Dns.readU16_atEnd body rfl rfl, ?_⟩
  refine Dns.bind_eq_some_iff.mpr ⟨Dns.be16 0 4, _, Dns.readU16_atEnd body rfl rfl, ?_⟩
  exact Dns.bind_eq_some_iff.mpr ⟨_, _, Dns.readBytes_atEnd body (by decide), rfl⟩

/-- The reply to a query parses; its answer is the first record behind the question, and the appended
    record is the last one. -/
theorem parse_reply {buf : List UInt8} {q : Dns.Message} {question : Dns.Question}
    (hparse : Dns.parse buf = some q) (hq : IsQuery q question) :
    Dns.parse (patchHeader buf ++ portalRecord) = some
      { id := q.id
        flags := (0x81, 0x80)
        questions := q.questions
        answers := (q.additional ++ [portalAnswer question.name]).take 1
        authority := []
        additional := (q.additional ++ [portalAnswer question.name]).drop 1 } := by
  obtain ⟨i1, i0, f1, f0, q1, q0, a1, a0, n1, n0, r1, r0, body, s, rfl, hsections, rfl⟩ :=
    Dns.parse_eq_some_iff.mp hparse
  obtain ⟨-, hqs, han, hns⟩ := hq
  obtain ⟨questions, answers, authority, additional⟩ := s
  simp only at hqs han hns
  subst hqs han hns
  -- the question is the first thing in the body, so the appended pointer finds its name
  obtain ⟨hqd, -, -, -, p, hmany⟩ := Dns.of_readSections hsections
  rw [← hqd] at hmany
  obtain ⟨_, hquestion, hone⟩ := Dns.readMany_one.mp hmany
  obtain rfl := List.singleton_inj.mp hone
  obtain ⟨name, next, hname, hrest⟩ := Dns.bind_eq_some_iff.mp hquestion
  have hqname : question.name = name := by
    obtain ⟨_, _, -, hrest⟩ := Dns.bind_eq_some_iff.mp hrest
    obtain ⟨_, _, -, hrest⟩ := Dns.bind_eq_some_iff.mp hrest
    exact (congrArg Dns.Question.name (Prod.mk.inj (Option.some.inj hrest)).1).symm
  have happend := Dns.readSections_append hsections (readRecord_portal hname)
  rw [← hqname] at happend
  exact Dns.parse_eq_some_iff.mpr ⟨i1, i0, 0x81, 0x80, q1, q0, 0, 1, n1, n0, r1, r0,
    body ++ portalRecord, _, rfl, happend, rfl⟩

/-- A query that fits the buffer is answered, with no write outside the buffer; and the reply is the
    portal's exactly when the query has no additional section, or one whose first record happens to be
    the portal's answer. -/
theorem portal_reply_iff {datagram : List UInt8} {q : Dns.Message} {question : Dns.Question}
    (hsize : datagram.length ≤ dnsBufSize) (hparse : Dns.parse datagram = some q)
    (hq : IsQuery q question) (stack : Vector UInt8 dnsRespSize) :
    (∃ reply, dnsTaskPass stack datagram = .ok (some reply) ∧ IsPortalReply q question reply) ↔
      ∀ r, q.additional.head? = some r → IsPortalRecord question.name r := by
  obtain ⟨i1, i0, f1, f0, q1, q0, a1, a0, n1, n0, r1, r0, body, s, hbuf, -, -⟩ :=
    Dns.parse_eq_some_iff.mp hparse
  have hlen : 12 ≤ datagram.length := by
    rw [hbuf]
    simp only [List.length_cons]
    omega
  have hreply := parse_reply hparse hq
  rw [dnsTaskPass_eq, List.take_of_length_le hsize, if_neg (Nat.not_lt.mpr hlen)]
  have hself : IsPortalRecord question.name (portalAnswer question.name) := ⟨rfl, rfl, rfl, rfl⟩
  constructor
  · rintro ⟨reply, heq, m, hm, -, -, -, r, hr, hportal⟩ r' hhead
    obtain rfl := Option.some.inj (Except.ok.inj heq)
    obtain rfl := Option.some.inj (hreply.symm.trans hm)
    obtain ⟨rs, hrs⟩ := List.head?_eq_some_iff.mp hhead
    simp only [hrs, List.cons_append, List.take_succ_cons, List.take_zero, List.cons.injEq,
      and_true] at hr
    rw [hr]
    exact hportal
  · intro h
    refine ⟨_, rfl, _, hreply, rfl, rfl, decide_eq_true (by decide : (0x81 : UInt8) &&& 0x80 ≠ 0), ?_⟩
    cases hadd : q.additional with
    | nil => exact ⟨_, rfl, hself⟩
    | cons r rs => exact ⟨r, rfl, h r (by rw [hadd]; rfl)⟩

/-- `a.b`, type A, as a phone asks for it: with the given additional section and its count. -/
def queryBytes (ar : UInt8) (additional : List UInt8) : List UInt8 :=
  [0x12, 0x34, 0x01, 0x00, 0, 1, 0, 0, 0, 0, 0, ar, 1, 0x61, 1, 0x62, 0, 0, 1, 0, 1] ++ additional

/-- An EDNS record: root name, OPT, 1232 bytes. -/
def optBytes : List UInt8 := [0, 0, 41, 0x04, 0xD0, 0, 0, 0, 0, 0, 0]

def sampleQuestion : Dns.Question := ⟨[[0x61], [0x62]], 1, 1⟩

def sampleQuery (additional : List Dns.Record) : Dns.Message where
  id := 0x1234
  flags := (0x01, 0x00)
  questions := [sampleQuestion]
  answers := []
  authority := []
  additional := additional

def optRecord : Dns.Record := ⟨[], 41, 1232, 0, []⟩

theorem portal_reply_plain :
    ∃ reply, dnsTaskPass (.replicate dnsRespSize 0) (queryBytes 0 []) = .ok (some reply) ∧
      IsPortalReply (sampleQuery []) sampleQuestion reply :=
  (portal_reply_iff (by decide) (by decide +kernel) ⟨by decide, rfl, rfl, rfl⟩ _).mpr
    (by simp [sampleQuery])

/-- The same question with EDNS: the answer section of the reply is the OPT record. -/
theorem edns_breaks_reply :
    ¬∀ (datagram : List UInt8) (q : Dns.Message) (question : Dns.Question),
      datagram.length ≤ dnsBufSize → Dns.parse datagram = some q → IsQuery q question →
      ∀ stack : Vector UInt8 dnsRespSize, ∃ reply,
        dnsTaskPass stack datagram = .ok (some reply) ∧ IsPortalReply q question reply := by
  intro h
  obtain ⟨reply, hsent, m, hm, -, -, -, r, hr, -, htype, -⟩ :=
    h (queryBytes 1 optBytes) (sampleQuery [optRecord]) sampleQuestion (by decide)
      (by decide +kernel) ⟨by decide, rfl, rfl, rfl⟩ (Vector.replicate _ 0)
  have hreply : dnsTaskPass (Vector.replicate _ 0) (queryBytes 1 optBytes)
      = .ok (some (patchHeader (queryBytes 1 optBytes) ++ portalRecord)) := by
    rw [dnsTaskPass_eq]
    rfl
  obtain rfl := Option.some.inj (Except.ok.inj (hreply.symm.trans hsent))
  have hanswers : (Dns.parse (patchHeader (queryBytes 1 optBytes) ++ portalRecord)).map
      (fun m => m.answers) = some [optRecord] := by decide +kernel
  rw [hm, Option.map_some, hr] at hanswers
  obtain rfl := List.singleton_inj.mp (Option.some.inj hanswers)
  exact absurd htype (by decide)

end SeeedMote.Gateway
