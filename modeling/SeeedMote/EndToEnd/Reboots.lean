import SeeedMote.EndToEnd.ExactlyOnce

/-! A mote that reboots, heard by a gateway that does not. Every boot starts the packet ids anew, with
    1 for its heartbeat, and the gateway compares with the last id only. Two successive bursts with
    the same id are one to it, and across a reset that takes no wrap: a boot that is cut short before
    its first pickup is followed by another heartbeat with id 1.

        boot ──▶ seen 1 ──▶ event 2 ──▶ event 3 ──reset──▶ seen 1 ──reset──▶ seen 1 (swallowed) -/

namespace SeeedMote.EndToEnd
open Lib Mote Gateway

/-! ### The lives of a mote -/

/-- A burst on the air, for motion or for a boot. -/
structure Sent where
  motion : Bool
  burst : Burst
  deriving DecidableEq

/-- The heartbeat of `main`, the first payload of a boot. -/
def heartbeat : Sent := ⟨false, ⟨1, (startBthomeBurst 0 bootHeartbeatMs 0 .reset).2.payload, 0⟩⟩

/-- The bursts of one boot, whose events end at the next reset. -/
def lifeBursts (es : List MoteEvent) : List Sent := heartbeat :: (bursts es).map (⟨true, ·⟩)

/-- The bursts of a mote that boots once for each element of `lives`. -/
def history (lives : List (List MoteEvent)) : List Sent := lives.flatMap lifeBursts

/-- A burst with the signal strengths of the adverts that a gateway hears of it, at least one. -/
structure HeardBurst where
  sent : Sent
  rssi : Int8
  more : List Int8
  deriving DecidableEq

namespace HeardBurst

def reports (addr : BleAddr) (h : HeardBurst) : List Report :=
  (h.rssi :: h.more).map fun rssi => ⟨addr, rssi, advert addr h.sent.burst⟩

/-- The publish call due for it. -/
def due (addr : BleAddr) (h : HeardBurst) : PublishCall :=
  if h.sent.motion then .event (macKey addr) (UInt8.ofNat h.sent.burst.number) h.rssi.toInt
  else .seen (macKey addr) h.rssi.toInt

end HeardBurst

/-- No two successive bursts have the same number modulo 256. -/
def NumbersDiffer (sent : List Sent) : Prop :=
  (sent.map fun s => s.burst.number % 256).IsChain (· ≠ ·)

instance (sent : List Sent) : Decidable (NumbersDiffer sent) :=
  inferInstanceAs (Decidable (List.IsChain _ _))

/-- Every `bt_le_adv_start` of the run succeeds. -/
def StartsOk (es : List MoteEvent) : Prop := ∀ i, MoteEvent.interrupt i ∈ es → i.rc = 0

/-! ### What the gateway hears -/

/-- Every burst carries the payload of its number. -/
theorem payload_of_history {lives : List (List MoteEvent)} {s : Sent} (hs : s ∈ history lives) :
    s.burst.payload = bthomePayload (UInt8.ofNat s.burst.number) (if s.motion then 1 else 0) := by
  obtain ⟨es, -, hs⟩ := List.mem_flatMap.mp hs
  rcases List.mem_cons.mp hs with rfl | hs
  · rfl
  · obtain ⟨b, hb, rfl⟩ := List.mem_map.mp hs
    exact payload_eq hb

/-- A report of the mote's advert holds one valid advert. -/
theorem heard_advert (addr : BleAddr) (rssi : Int8) {b : Burst} {packetId moving : UInt8}
    (hb : b.payload = bthomePayload packetId moving) :
    (⟨addr, rssi, advert addr b⟩ : Report).heard
      = [⟨addr, rssi, packetId, (bthomePayload packetId moving).moving⟩] := by
  have hvalid : heard? ⟨addr, rssi, (bthomePayload packetId moving).bytes.drop 2⟩
      = some ⟨addr, rssi, packetId, (bthomePayload packetId moving).moving⟩ := by
    rw [heard?, parseObjects_bthome]
  rw [Report.heard, advert, hb, adWalk_bthomeAdvData (length_buildBleName_lt ..)]
  exact List.filterMap_cons_some hvalid

/-- What the gateway hears of one burst. -/
def HeardBurst.heard (addr : BleAddr) (h : HeardBurst) : List Heard :=
  (h.rssi :: h.more).map fun rssi =>
    ⟨addr, rssi, UInt8.ofNat h.sent.burst.number, if h.sent.motion then 1 else 0⟩

theorem heard_reports (addr : BleAddr) {h : HeardBurst} (hpay : h.sent.burst.payload
      = bthomePayload (UInt8.ofNat h.sent.burst.number) (if h.sent.motion then 1 else 0)) :
    (h.reports addr).flatMap Report.heard = h.heard addr := by
  have hmoving : (bthomePayload (UInt8.ofNat h.sent.burst.number)
      (if h.sent.motion then 1 else 0)).moving = if h.sent.motion then 1 else 0 := by
    cases h.sent.motion <;> rfl
  rw [HeardBurst.reports, HeardBurst.heard, List.flatMap_map, List.map_eq_flatMap]
  refine List.flatMap_congr ?_
  intro rssi _
  rw [heard_advert addr rssi hpay, hmoving]

theorem call_of_heard (addr : BleAddr) (h : HeardBurst) :
    ((h.heard addr).head?.map Heard.call) = some (h.due addr) := by
  rw [HeardBurst.heard, HeardBurst.due, List.map_cons, List.head?_cons, Option.map_some]
  cases h.sent.motion <;> rfl

/-! ### The calls it makes -/

section Gateway
variable (addr : BleAddr)

/-- A gateway whose table reads `0xFF` for the mote makes the calls that are due exactly when all
    packet ids change, beginning with `0xFF`. -/
theorem aloneCalls_eq_iff (hist : List HeardBurst) :
    aloneCalls 0xFF (hist.flatMap (HeardBurst.heard addr)) = hist.map (HeardBurst.due addr) ↔
      (0xFF :: hist.map fun h => UInt8.ofNat h.sent.burst.number).IsChain (· ≠ ·) := by
  have hvals : ∀ h ∈ hist, ∀ x ∈ h.heard addr, () = () ∧
      x.packetId = UInt8.ofNat h.sent.burst.number := by
    intro h _ x hx
    obtain ⟨rssi, -, rfl⟩ := List.mem_map.mp hx
    exact ⟨rfl, rfl⟩
  have hall : (hist.filter fun h => h.heard addr ≠ []) = hist :=
    List.filter_eq_self.mpr fun h _ => by simp [HeardBurst.heard]
  have hdue : (hist.filterMap fun h => (h.heard addr).head?).map Heard.call
      = hist.map (HeardBurst.due addr) := by
    rw [List.map_filterMap, ← List.filterMap_eq_map]
    exact List.filterMap_congr fun h _ => call_of_heard addr h
  have hblocks := outputs_change_blocks (fun _ => ()) Heard.packetId (HeardBurst.heard addr)
    (fun h => UInt8.ofNat h.sent.burst.number) hist (fun _ => some 0xFF) rfl hvals
  rw [hall] at hblocks
  rw [aloneCalls, aloneStep]
  rcases hblocks with ⟨hchain, hout⟩ | ⟨hchain, hshort⟩
  · rw [hout]
    exact ⟨fun _ => hchain, fun _ => hdue⟩
  · refine ⟨?_, fun h => absurd h hchain⟩
    intro heq
    have hlen := congrArg List.length (heq.trans hdue.symm)
    rw [List.length_map, List.length_map] at hlen
    exact absurd hlen hshort.ne

theorem ofNat_ne_iff (i j : ℕ) : UInt8.ofNat i ≠ UInt8.ofNat j ↔ i % 256 ≠ j % 256 := by
  rw [Ne, ← UInt8.toNat_inj, UInt8.toNat_ofNat', UInt8.toNat_ofNat']

/-- The packet ids of a history change exactly when its numbers do, and 1 is not `0xFF`. -/
theorem ids_change_iff (lives : List (List MoteEvent)) :
    (0xFF :: (history lives).map fun s => UInt8.ofNat s.burst.number).IsChain (· ≠ ·) ↔
      NumbersDiffer (history lives) := by
  have hids : ((history lives).map fun s => UInt8.ofNat s.burst.number).IsChain (· ≠ ·) ↔
      NumbersDiffer (history lives) := by
    rw [NumbersDiffer, List.isChain_map, List.isChain_map]
    simp only [ofNat_ne_iff]
  rw [List.isChain_cons, hids]
  refine and_iff_right ?_
  intro p hp
  cases lives with
  | nil => simp [history] at hp
  | cons es lives =>
    obtain rfl : (1 : UInt8) = p := by
      simpa [history, lifeBursts, heartbeat] using hp
    decide

end Gateway

/-! ### When every start succeeds -/

/-- A pass that starts no burst fills no payload, unless a start fails. -/
theorem fills_of_silent {i : Interrupt} (hi : i.rc = 0) {m : Firmware}
    (h : (stateMachinePass i m).2 ≠ some 0) : (stateMachinePass i m).1.fills = m.fills := by
  rw [stateMachinePass] at h ⊢
  cases hsrc : i.src with
  | none => rfl
  | some src =>
    simp only [hsrc] at h ⊢
    split
    · next hd =>
      rw [if_pos hd] at h
      by_cases hc : m.ble.advState = .connected
      · exact if_pos hc
      · rw [hi, startBthomeBurst_ok _ _ _ hc] at h
        exact absurd rfl h
    · rfl

/-- One event: no burst and no payload, or the next of both. -/
theorem moteStep_numbered (m : Firmware) {e : MoteEvent} (h : StartsOk [e]) :
    ((moteStep m e).2 = [] ∧ (moteStep m e).1.fills = m.fills) ∨
    (∃ b, (moteStep m e).2 = [b] ∧ b.number = m.fills + 1 ∧
      (moteStep m e).1.fills = m.fills + 1) := by
  rcases moteStep_cases m e with ⟨hq, hout⟩ | ⟨i, rfl, -, hout | ⟨hfills, hout⟩⟩
  · exact .inl ⟨hout, hq.fills⟩
  · refine .inl ⟨hout, fills_of_silent (h i (List.mem_singleton_self _)) ?_⟩
    intro hrc
    simp [moteStep, hrc] at hout
  · exact .inr ⟨_, hout, rfl, hfills⟩

/-- The bursts of a run are numbered without gaps. -/
theorem numbers_of_run : ∀ (es : List MoteEvent) (m : Firmware), StartsOk es →
    (outputs moteStep m es).map Burst.number
      = List.range' (m.fills + 1) (outputs moteStep m es).length := by
  intro es
  induction es with
  | nil =>
    intro m _
    rfl
  | cons e es ih =>
    intro m h
    have hrest := ih (moteStep m e).1 fun i hi => h i (List.mem_cons_of_mem _ hi)
    have he : StartsOk [e] := fun i hi => h i (by rw [List.mem_singleton.mp hi]; simp)
    rw [outputs, List.map_append, hrest, List.length_append]
    rcases moteStep_numbered m he with ⟨hout, hfills⟩ | ⟨b, hout, hnum, hfills⟩
    · rw [hout, hfills, List.length_nil, Nat.zero_add]
      rfl
    · rw [hout, hfills, List.length_singleton, Nat.add_comm 1, List.range'_succ,
        List.map_singleton, hnum]
      rfl

/-- The numbers of one boot: 1 for the heartbeat and one more for every motion burst. -/
theorem numbers_of_life {es : List MoteEvent} (h : StartsOk es) :
    (lifeBursts es).map (fun s => s.burst.number) = List.range' 1 ((bursts es).length + 1) := by
  have hrun := numbers_of_run es .boot h
  rw [lifeBursts, List.map_cons, List.map_map, List.range'_succ]
  exact congrArg (1 :: ·) hrun

theorem isChain_range' : ∀ (n s : ℕ), (List.range' s n).IsChain fun i j => i % 256 ≠ j % 256
  | 0, _ => .nil
  | 1, _ => .singleton _
  | n + 2, s => by
    rw [List.range'_succ, List.range'_succ, List.isChain_cons_cons, ← List.range'_succ]
    exact ⟨by omega, isChain_range' (n + 1) (s + 1)⟩

/-- Within one boot successive numbers differ modulo 256. -/
theorem isChain_life {es : List MoteEvent} (h : StartsOk es) :
    (lifeBursts es).IsChain fun s s' => s.burst.number % 256 ≠ s'.burst.number % 256 := by
  have hnums : ((lifeBursts es).map fun s => s.burst.number).IsChain
      fun i j => i % 256 ≠ j % 256 := by
    rw [numbers_of_life h]
    exact isChain_range' _ _
  rwa [List.isChain_map] at hnums

/-- The last burst of a boot has one number more than there were motion bursts. -/
theorem last_of_life {es : List MoteEvent} (h : StartsOk es) :
    ∃ s, (lifeBursts es).getLast? = some s ∧ s.burst.number = (bursts es).length + 1 := by
  refine Option.map_eq_some_iff.mp ?_
  rw [← List.getLast?_map, numbers_of_life h, List.getLast?_range', if_neg (Nat.succ_ne_zero _)]
  exact congrArg some (by omega)

/-- If every start succeeds, successive bursts agree modulo 256 just where a boot ends after a multiple
    of 256 motion bursts and another boot follows. -/
theorem numbersDiffer_iff {lives : List (List MoteEvent)} (h : ∀ es ∈ lives, StartsOk es) :
    NumbersDiffer (history lives) ↔ ∀ es ∈ lives.dropLast, ¬256 ∣ (bursts es).length := by
  induction lives with
  | nil => simp [NumbersDiffer, history]
  | cons es lives ih =>
    obtain ⟨hes, hlives⟩ := List.forall_mem_cons.mp h
    have hrest := ih hlives
    rw [NumbersDiffer, List.isChain_map] at hrest ⊢
    rw [history, List.flatMap_cons, ← history, List.isChain_append, hrest]
    cases lives with
    | nil => simpa [history] using isChain_life hes
    | cons es' lives =>
      rw [List.dropLast_cons_cons, List.forall_mem_cons, and_comm (a := ¬256 ∣ _)]
      refine (and_iff_right (isChain_life hes)).trans (and_congr_right fun _ => ?_)
      -- the next boot starts with number 1
      obtain ⟨s, hs, hnum⟩ := last_of_life hes
      have hfirst : (history (es' :: lives)).head? = some heartbeat := rfl
      have hone : heartbeat.burst.number = 1 := rfl
      rw [hs, hfirst]
      simp only [Option.mem_some_iff, forall_eq', hnum, hone]
      omega

/-! ### One call for each burst -/

/-- A mote with any resets, heard by a gateway that ran before the mote's first boot, has a slot for it
    and receives every burst: the calls made for the mote are the ones due, `seen` for each boot and
    `event` for each motion burst, exactly when no two successive bursts agree modulo 256. If every
    start succeeds this is a matter of where the resets fall. -/
theorem one_call_per_burst_iff (addr : BleAddr) {lives : List (List MoteEvent)}
    {hist : List HeardBurst} (hhist : hist.map HeardBurst.sent = history lives) {rs : List Report}
    (hrs : reportsOf addr rs = hist.flatMap (HeardBurst.reports addr))
    (hslot : (strangersFirst addr rs).card < maxMotes) :
    (publishesFor addr rs = .ok (hist.map (HeardBurst.due addr)) ↔ NumbersDiffer (history lives)) ∧
    ((∀ es ∈ lives, StartsOk es) →
      (publishesFor addr rs = .ok (hist.map (HeardBurst.due addr)) ↔
        ∀ es ∈ lives.dropLast, ¬256 ∣ (bursts es).length)) := by
  have hheard : (reportsOf addr rs).flatMap Report.heard = hist.flatMap (HeardBurst.heard addr) := by
    rw [hrs, List.flatMap_assoc]
    refine List.flatMap_congr ?_
    intro h hh
    exact heard_reports addr (payload_of_history (hhist ▸ List.mem_map_of_mem hh))
  have hids : (hist.map fun h => UInt8.ofNat h.sent.burst.number)
      = (history lives).map fun s => UInt8.ofNat s.burst.number := by
    rw [← hhist, List.map_map]
    rfl
  have hiff : publishesFor addr rs = .ok (hist.map (HeardBurst.due addr)) ↔
      NumbersDiffer (history lives) := by
    rw [publishesFor_eq, if_pos hslot, hheard, Except.ok.injEq, aloneCalls_eq_iff, hids,
      ids_change_iff]
  exact ⟨hiff, fun hok => hiff.trans (numbersDiffer_iff hok)⟩

/-! A mote that is picked up once, reset, and hears nothing more; and one that is reset before its
    first pickup. -/

def hearOnce (s : Sent) : HeardBurst := ⟨s, -60, [-61]⟩

/-- All a gateway hears of these lives. -/
def reportsOfLives (lives : List (List MoteEvent)) : List Report :=
  ((history lives).map hearOnce).flatMap (HeardBurst.reports sampleAddr)

theorem one_call_per_burst_pickup :
    publishesFor sampleAddr (reportsOfLives [sampleRun, []])
      = .ok [.seen (macKey sampleAddr) (-60), .event (macKey sampleAddr) 2 (-60),
          .seen (macKey sampleAddr) (-60)] := by
  have hhist : ((history [sampleRun, []]).map hearOnce).map HeardBurst.sent
      = history [sampleRun, []] := by decide +kernel
  have hrs : reportsOf sampleAddr (reportsOfLives [sampleRun, []])
      = ((history [sampleRun, []]).map hearOnce).flatMap (HeardBurst.reports sampleAddr) := by
    decide +kernel
  have hok : ∀ es ∈ [sampleRun, []], StartsOk es := by
    intro es hes i hi
    rcases List.mem_pair.mp hes with rfl | rfl
    · simp only [sampleRun, List.mem_singleton, MoteEvent.interrupt.injEq] at hi
      rw [hi]
    · simp at hi
  exact ((one_call_per_burst_iff sampleAddr hhist hrs (by decide +kernel)).2 hok).mpr
    (by decide +kernel)

/-- The config tool saves and resets a mote that was not moved yet: the second heartbeat is lost. -/
theorem reset_hides_heartbeat :
    ¬∀ (addr : BleAddr) (lives : List (List MoteEvent)) (hist : List HeardBurst) (rs : List Report),
      hist.map HeardBurst.sent = history lives →
      reportsOf addr rs = hist.flatMap (HeardBurst.reports addr) →
      (strangersFirst addr rs).card < maxMotes →
      publishesFor addr rs = .ok (hist.map (HeardBurst.due addr)) := by
  intro h
  have := h sampleAddr [[], []] ((history [[], []]).map hearOnce) (reportsOfLives [[], []])
    (by decide +kernel) (by decide +kernel) (by decide +kernel)
  exact absurd this (by decide +kernel)

end SeeedMote.EndToEnd
