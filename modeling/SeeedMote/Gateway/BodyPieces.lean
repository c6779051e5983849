import SeeedMote.Gateway.Settings

/-! A POST body on its way through TCP. It arrives in pieces of the transport's choice; a call of
    `httpd_req_recv` returns what has arrived, up to the bytes asked for, and `read_body` makes one:

        content_len  │ piece │ piece │ piece │
                     ╰──┬────╯
                 buf ◀──╯  then a NUL

    Both POST handlers see the body through this buffer alone. -/

namespace SeeedMote.Gateway.Settings
open Lib

/-! ### Arrivals -/

/-- A body of 1 to 512 bytes, in the pieces it arrives in. -/
structure Arrival where
  pieces : List (List UInt8)
  nonempty : ∀ p ∈ pieces, p ≠ []
  length_pos : 1 ≤ pieces.flatten.length
  length_le : pieces.flatten.length ≤ 512

def Arrival.body (a : Arrival) : List UInt8 := a.pieces.flatten

/-- The first call of `httpd_req_recv`, for `n` bytes. -/
def httpdReqRecv (pieces : List (List UInt8)) (n : ℕ) : List UInt8 := (pieces.headD []).take n

theorem Arrival.toNat_length (a : Arrival) : a.body.length.toUInt32.toNat = a.body.length := by
  have hle : a.body.length ≤ 512 := a.length_le
  exact UInt32.toNat_ofNat_of_lt' (lt_of_le_of_lt hle (by decide))

theorem length_httpdReqRecv_le (pieces : List (List UInt8)) (n : ℕ) :
    (httpdReqRecv pieces n).length ≤ n := by
  rw [httpdReqRecv, List.length_take]
  exact min_le_left _ _

/-- The request that brings the body: it declares the whole of it. -/
def Arrival.request (a : Arrival) (mallocOk : Bool) : HttpRequest where
  contentLen := a.body.length.toUInt32
  mallocOk := mallocOk
  recv := httpdReqRecv a.pieces a.body.length
  recv_le := by
    rw [a.toNat_length]
    exact length_httpdReqRecv_le _ _

/-- The same body in one piece. -/
def Arrival.whole (a : Arrival) : Arrival where
  pieces := [a.body]
  nonempty := by
    intro p hp
    obtain rfl := List.mem_singleton.mp hp
    exact List.ne_nil_of_length_pos a.length_pos
  length_pos := by
    rw [List.flatten_singleton]
    exact a.length_pos
  length_le := by
    rw [List.flatten_singleton]
    exact a.length_le

theorem Arrival.whole_of_one {a : Arrival} (h : a.pieces = [a.body]) : a.whole = a := by
  obtain ⟨pieces, hne, hpos, hle⟩ := a
  exact Arrival.mk.injEq .. ▸ h.symm

/-! ### What `read_body` returns -/

/-- The bytes `read_body` returns, with the NUL it appends. -/
def bodyBuffer (req : HttpRequest) : Option (List UInt8) :=
  let len := req.contentLen.toInt32
  if len ≤ 0 ∨ 512 < len then none
  else if req.mallocOk = false ∨ req.recv = [] then none
  else some (req.recv ++ [0])

theorem takeWhile_nul (bs : List UInt8) :
    (bs ++ [0]).takeWhile (· ≠ 0) = bs.takeWhile (· ≠ 0) := by
  induction bs with
  | nil => rfl
  | cons b bs ih =>
    rw [List.cons_append, List.takeWhile_cons, List.takeWhile_cons, ih]

/-- The string read from the buffer ends at its first NUL. -/
theorem readBody_eq (req : HttpRequest) :
    readBody req = (bodyBuffer req).map fun buf => buf.takeWhile (· ≠ 0) := by
  rw [readBody, bodyBuffer]
  split_ifs
  · rfl
  · rfl
  · rw [Option.map_some, takeWhile_nul]

/-- The first piece is all that `read_body` sees. -/
theorem recv_request (a : Arrival) (mallocOk : Bool) :
    ∃ p ps, a.pieces = p :: ps ∧ p ≠ [] ∧ (a.request mallocOk).recv = p := by
  cases hpieces : a.pieces with
  | nil =>
    have hpos := a.length_pos
    rw [hpieces] at hpos
    exact absurd hpos (by decide)
  | cons p ps =>
    have hmem : p ∈ a.pieces := by
      rw [hpieces]
      exact List.mem_cons_self ..
    have hfirst : a.body = p ++ ps.flatten := by rw [Arrival.body, hpieces, List.flatten_cons]
    have hle : p.length ≤ a.body.length := by
      rw [hfirst, List.length_append]
      exact Nat.le_add_right _ _
    refine ⟨p, ps, rfl, a.nonempty p hmem, ?_⟩
    have hrecv : (a.request mallocOk).recv = ((p :: ps).headD []).take a.body.length := by
      rw [← hpieces]
      rfl
    rw [hrecv]
    exact List.take_of_length_le hle

theorem bodyBuffer_request (a : Arrival) (mallocOk : Bool) : bodyBuffer (a.request mallocOk) =
    if mallocOk then some (a.pieces.headD [] ++ [0]) else none := by
  obtain ⟨p, ps, hpieces, hp, hrecv⟩ := recv_request a mallocOk
  have hpos : 1 ≤ a.body.length := a.length_pos
  have hle : a.body.length ≤ 512 := a.length_le
  have hlen : (a.request mallocOk).contentLen.toInt32.toInt = a.body.length :=
    Int32.toInt_ofNat_of_lt (by omega)
  have hcheck : ¬((a.request mallocOk).contentLen.toInt32 ≤ 0 ∨
      512 < (a.request mallocOk).contentLen.toInt32) := by
    rw [Int32.le_iff_toInt_le, Int32.lt_iff_toInt_lt, hlen]
    rintro (h | h)
    · have hzero : (a.body.length : ℤ) ≤ 0 := h
      omega
    · have hlarge : (512 : ℤ) < a.body.length := h
      omega
  rw [bodyBuffer, if_neg hcheck, hrecv, hpieces]
  cases mallocOk with
  | false => simp [Arrival.request]
  | true => simp [Arrival.request, hp]

/-! ### Independence of the pieces -/

/-- What the handlers do with a body does not show the pieces it arrived in. -/
structure SeenWhole (a : Arrival) (mallocOk : Bool) : Prop where
  complete : bodyBuffer (a.request mallocOk) = some (a.body ++ [0])
  wifi : ∀ api nvs,
    handleWifiPost api (a.request mallocOk) nvs = handleWifiPost api (a.whole.request mallocOk) nvs
  mqtt : ∀ api castDouble initOk s,
    handleMqttPost api castDouble (a.request mallocOk) initOk s =
      handleMqttPost api castDouble (a.whole.request mallocOk) initOk s

/-- The first of non-empty pieces is all of them when it is the only one. -/
theorem head_eq_flatten_iff {α : Type} {p : List α} {ps : List (List α)} (h : ∀ q ∈ ps, q ≠ []) :
    p = (p :: ps).flatten ↔ ps = [] := by
  rw [List.flatten_cons, List.self_eq_append_right, List.flatten_eq_nil_iff]
  constructor
  · intro hall
    refine List.eq_nil_iff_forall_not_mem.mpr ?_
    intro q hq
    exact h q hq (hall q hq)
  · rintro rfl q hq
    exact absurd hq List.not_mem_nil

/-- The body is read whole, and both handlers act on all of it, exactly when `malloc` succeeds and the
    body arrives in one piece. -/
theorem seenWhole_iff (a : Arrival) (mallocOk : Bool) :
    SeenWhole a mallocOk ↔ mallocOk = true ∧ a.pieces.length = 1 := by
  obtain ⟨p, ps, hpieces, hp, hrecv⟩ := recv_request a mallocOk
  have hrest : ∀ q ∈ ps, q ≠ [] := by
    intro q hq
    exact a.nonempty q (by rw [hpieces]; exact List.mem_cons_of_mem _ hq)
  have hone : a.pieces.length = 1 ↔ ps = [] := by simp [hpieces]
  have hbody : a.body = (p :: ps).flatten := by rw [Arrival.body, hpieces]
  rw [hone, ← head_eq_flatten_iff (p := p) hrest]
  constructor
  · intro h
    have hcomplete := h.complete
    rw [bodyBuffer_request, hpieces, hbody] at hcomplete
    cases mallocOk with
    | false => simp at hcomplete
    | true => exact ⟨rfl, by simpa using hcomplete⟩
  · rintro ⟨rfl, hp⟩
    have hone : a.pieces = [a.body] := by
      rw [hbody, ← hp, hpieces, (head_eq_flatten_iff hrest).mp hp]
    have hwhole : a.whole = a := Arrival.whole_of_one hone
    refine ⟨?_, ?_, ?_⟩
    · rw [bodyBuffer_request, hpieces, hbody, ← hp]
      rfl
    · intro api nvs
      rw [hwhole]
    · intro api castDouble initOk s
      rw [hwhole]

/-- The credentials of `cafeBody`, cut inside the network's name. -/
def cafeArrival : Arrival where
  pieces := [cafeBody.take 11, cafeBody.drop 11]
  nonempty := by decide +kernel
  length_pos := by decide +kernel
  length_le := by decide +kernel

/-- The first piece alone is no JSON text: the request is refused, and nothing is saved. -/
theorem split_body_is_refused : ¬∀ a : Arrival, SeenWhole a true := by
  intro h
  have hwifi := (h cafeArrival).wifi cafeJson emptyNvs
  revert hwifi
  decide +kernel

end SeeedMote.Gateway.Settings
