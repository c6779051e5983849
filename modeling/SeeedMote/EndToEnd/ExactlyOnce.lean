import SeeedMote.EndToEnd.AdvertLink
import SeeedMote.EndToEnd.MessageLink
import SeeedMote.Gateway.OneMote
import SeeedMote.Mote.StateMachine

/-! One mote, any number of gateways and one backend. The mote's run puts motion bursts on the air; a
    gateway filters the adverts it hears and publishes copies; the copies of all gateways reach the
    backend in any order.

        mote ──burst──▶ gateway ──copy──▶ ┐
               └──────▶ gateway ──copy──▶ ┴──▶ _on_message ──▶ add_event

    A gateway publishes one copy of every burst it hears, as long as no wrap of the packet id hides one
    from it. The backend accepts one copy of every burst: all copies of a burst come within its dedup
    window, and bursts that share a packet id are far more than two windows apart. -/

namespace SeeedMote.EndToEnd
open Lib Mote Gateway App

/-! ### Gateways -/

/-- The advert of a burst of the mote with address `addr`, whose low bytes are in its name. -/
def advert (addr : BleAddr) (b : Burst) : List UInt8 :=
  let octet := fun i => addr.toList.getD i 0
  bthomeAdvData (buildBleName (octet 0) (octet 1) (octet 2)) b.payload

/-- An advert of a burst that a gateway hears. -/
structure Reception where
  burst : Burst
  rssi : Int8
  deriving DecidableEq

/-- A published message, with the burst it was published for. -/
structure Copy where
  burst : Burst
  message : Gateway.MqttMessage
  deriving DecidableEq

/-- A gateway: the last bytes of its MAC address, its MQTT manager, the adverts it heard before the
    run, the number of the burst it heard last then, and the signal strengths of the adverts it hears
    of a burst in the run. -/
structure Listener where
  m3 : UInt8
  m4 : UInt8
  m5 : UInt8
  mqtt : MqttMgr
  past : List Heard
  earlier : ℕ
  hears : Burst → List Int8

namespace Listener

def gwId (g : Listener) : CStr := gwIdOf g.m3 g.m4 g.m5

/-- Its dedup table when the run begins. -/
def table (g : Listener) : DedupTable := finalState heardStep bootTable g.past

/-- One advert: `gap_event_cb`, with the publish calls it makes. -/
def hear (g : Listener) (addr : BleAddr) (t : DedupTable) (r : Reception) :
    DedupTable × List Copy :=
  match gapEventCb t addr r.rssi (advert addr r.burst) with
  | .ok (t, calls) => (t, (calls.filterMap (PublishCall.run g.gwId g.mqtt)).map (⟨r.burst, ·⟩))
  | .error _ => (t, [])

/-- What it hears of one burst. -/
def receptionsOf (g : Listener) (b : Burst) : List Reception := (g.hears b).map (⟨b, ·⟩)

/-- The copies it publishes, for bursts in radio order. -/
def copies (g : Listener) (addr : BleAddr) (bs : List Burst) : List Copy :=
  outputs (g.hear addr) g.table (bs.flatMap g.receptionsOf)

/-- Numbers of the bursts it hears. -/
def heardNumbers (g : Listener) (bs : List Burst) : List ℕ :=
  (bs.filter fun b => g.receptionsOf b ≠ []).map Burst.number

/-- It knows the mote from an earlier burst, its MQTT link is up, and the packet-id distance between two
    successive bursts it hears is never a multiple of 256. -/
structure Ready (g : Listener) (addr : BleAddr) (bs : List Burst) : Prop where
  knows : ∃ s ∈ g.table.slots, s.used = true ∧ s.mac = addr ∧ s.pid = UInt8.ofNat g.earlier
  linkUp : g.mqtt.client.isSome ∧ g.mqtt.connected = true
  distances : (g.earlier :: g.heardNumbers bs).IsChain fun i j => ¬256 ∣ j - i

end Listener

/-! ### The backend -/

/-- A copy with the clock readings `_on_message` makes for it. -/
structure Arrival where
  copy : Copy
  readings : Readings
  deriving DecidableEq

/-- `_on_message` for a copy; the output is its burst if `add_event` accepts. -/
def deliver (rt : PyRuntime) (s : EventStore) (a : Arrival) : EventStore × List Burst :=
  let h := onMessage rt a.readings (topicText a.copy.message.topic) a.copy.message.payload s
  (h.store, h.scheduled.filterMap fun e =>
    match e with
    | .event _ => some a.copy.burst
    | _ => none)

/-- The bursts whose copies `add_event` accepts, once for each acceptance. -/
def accepted (rt : PyRuntime) (maxEvents : ℕ) (as : List Arrival) : List Burst :=
  outputs (deliver rt) (.init maxEvents) as

/-! ### A gateway publishes one copy of each burst it hears -/

/-- A burst's payload says `moving = 1`. -/
def IsMotion (b : Burst) : Prop := b.payload = bthomePayload b.payload.packetId 1

section Gateways
variable (g : Listener) (addr : BleAddr)

/-- The copy published for an advert. -/
def Listener.copyOf (r : Reception) : Copy where
  burst := r.burst
  message := ⟨lit "seeedmote/mote/" ++ macKey addr ++ lit "/event",
    printObject (eventMembers g.gwId r.burst.payload.packetId r.rssi.toInt), false⟩

/-- The change filter a gateway amounts to, for the adverts of one mote. -/
def onAir : (Unit → Option UInt8) → Reception → (Unit → Option UInt8) × List Reception :=
  changeStep (fun _ => ()) fun r => r.burst.payload.packetId

/-- The table's entry for the mote is the filter's last value. -/
def Knows (t : DedupTable) (last : Unit → Option UInt8) : Prop :=
  ∃ d p, Rep t d ∧ d.get? addr = some p ∧ last () = some p

/-- One advert, gateway against change filter. -/
theorem hear_spec (hup : g.mqtt.client.isSome ∧ g.mqtt.connected = true) (t : DedupTable)
    (last : Unit → Option UInt8) (r : Reception) (h : Knows addr t last) (hb : IsMotion r.burst) :
    (g.hear addr t r).2 = (onAir last r).2.map (g.copyOf addr) ∧
      Knows addr (g.hear addr t r).1 (onAir last r).1 := by
  obtain ⟨d, p, hrep, hp, hlast⟩ := h
  set pid := r.burst.payload.packetId with hpid
  have hgap : gapEventCb t addr r.rssi (advert addr r.burst)
      = .ok (dedupStep t addr r.rssi pid 1) := by
    rw [advert, hb]
    exact gapEventCb_bthome t addr r.rssi (length_buildBleName_lt ..) pid 1
  have hsent := publishEvent_eq (gwIdOf_spec g.m3 g.m4 g.m5).1 addr pid r.rssi hup
  obtain ⟨hout, hrep'⟩ := dedupStep_present hrep hp r.rssi pid 1
  have hear_eq : g.hear addr t r = ((dedupStep t addr r.rssi pid 1).1,
      ((dedupStep t addr r.rssi pid 1).2.filterMap (PublishCall.run g.gwId g.mqtt)).map
        (⟨r.burst, ·⟩)) := by
    rw [Listener.hear, hgap]
  have hair : (onAir last r).2 = if p = pid then [] else [r] := by
    rw [onAir, changeStep_out, hlast]
    simp only [Option.some.injEq]
    rfl
  rw [hear_eq, hair, hout]
  refine ⟨?_, _, pid, hrep', Dict.get?_set_self d addr pid, ?_⟩
  · by_cases hsame : p = pid
    · rw [if_pos hsame, if_pos hsame]
      rfl
    · have hrun : PublishCall.run g.gwId g.mqtt (publishCall addr r.rssi pid 1)
          = some (g.copyOf addr r).message := hsent
      rw [if_neg hsame, if_neg hsame, List.filterMap_cons_some hrun]
      rfl
  · rw [onAir, changeStep_last]
    rfl

/-- Numbers whose distance is no multiple of 256 give different packet ids. -/
theorem ofNat_ne_of_not_dvd {i j : ℕ} (h : ¬256 ∣ j - i) : UInt8.ofNat i ≠ UInt8.ofNat j := by
  intro heq
  have hmod : i % 256 = j % 256 := by simpa [← UInt8.toNat_inj] using heq
  omega

/-- The copies of a gateway: one for each burst it hears, for the first advert it hears of it. -/
theorem copies_eq {bs : List Burst} (hready : g.Ready addr bs)
    (hbs : ∀ b ∈ bs, b.payload = bthomePayload (UInt8.ofNat b.number) 1) :
    g.copies addr bs = (bs.filterMap fun b => (g.receptionsOf b).head?).map (g.copyOf addr) := by
  obtain ⟨⟨s, hs, hused, hmac, hpid⟩, hup, hdist⟩ := hready
  obtain ⟨d, hrep⟩ := rep_of_run g.past rep_boot
  have hget := get?_of_slot hrep hs hused
  rw [hmac, hpid] at hget
  have hburst : ∀ b ∈ bs, ∀ r ∈ g.receptionsOf b, r.burst = b := by
    intro b _ r hr
    obtain ⟨rssi, -, rfl⟩ := List.mem_map.mp hr
    rfl
  have hmotion : ∀ r ∈ bs.flatMap g.receptionsOf, IsMotion r.burst := by
    intro r hr
    obtain ⟨b, hb, hr⟩ := List.mem_flatMap.mp hr
    rw [hburst b hb r hr, IsMotion, hbs b hb]
    rfl
  have hids : (UInt8.ofNat g.earlier :: ((bs.filter fun b => g.receptionsOf b ≠ []).map
      fun b => UInt8.ofNat b.number)).IsChain (· ≠ ·) := by
    have hmap := (List.isChain_map UInt8.ofNat).mpr (hdist.imp fun i j => ofNat_ne_of_not_dvd)
    rwa [List.map_cons, Listener.heardNumbers, List.map_map] at hmap
  have hknows : Knows addr g.table fun _ => some (UInt8.ofNat g.earlier) := ⟨d, _, hrep, hget, rfl⟩
  rw [Listener.copies, outputs_eq_map_of_simulation (g.copyOf addr) (hear_spec g addr hup) _ hknows
    hmotion]
  congr 1
  rcases outputs_change_blocks (fun _ => ()) (fun r : Reception => r.burst.payload.packetId)
      g.receptionsOf (fun b => UInt8.ofNat b.number) bs (fun _ => some (UInt8.ofNat g.earlier)) rfl
      (fun b hb r hr => ⟨rfl, by rw [hburst b hb r hr, hbs b hb]; rfl⟩)
    with ⟨-, hout⟩ | ⟨hchain, -⟩
  · exact hout
  · exact absurd hids hchain

/-- Which bursts a gateway publishes copies of. -/
theorem exists_copy_iff {bs : List Burst} (hready : g.Ready addr bs)
    (hbs : ∀ b ∈ bs, b.payload = bthomePayload (UInt8.ofNat b.number) 1) (b : Burst) :
    (∃ c ∈ g.copies addr bs, c.burst = b) ↔ b ∈ bs ∧ g.hears b ≠ [] := by
  rw [copies_eq g addr hready hbs]
  constructor
  · rintro ⟨c, hc, rfl⟩
    obtain ⟨r, hr, rfl⟩ := List.mem_map.mp hc
    obtain ⟨b, hb, hhead⟩ := List.mem_filterMap.mp hr
    obtain ⟨rssi, hrssi, rfl⟩ := List.mem_map.mp (List.mem_of_head? hhead)
    exact ⟨hb, List.ne_nil_of_mem hrssi⟩
  · rintro ⟨hb, hne⟩
    obtain ⟨rssi, rest, hcons⟩ := List.exists_cons_of_ne_nil hne
    refine ⟨g.copyOf addr ⟨b, rssi⟩, List.mem_map_of_mem ?_, rfl⟩
    exact List.mem_filterMap.mpr ⟨b, hb, by simp [Listener.receptionsOf, hcons]⟩

end Gateways

/-! ### The backend accepts one copy of each burst -/

section Backend
variable {rt : PyRuntime} (addr : BleAddr)

/-- The dedup key of a burst. -/
def eventKey (b : Burst) : PyStr × ℤ := (asciiText (macKey addr), b.payload.packetId.toNat)

/-- A copy the backend can read. -/
def Arrival.FromMote (a : Arrival) : Prop := ∃ g r, a.copy = Listener.copyOf g addr r

/-- One copy, backend against window filter. -/
theorem deliver_spec (hrt : rt.Standard) {a : Arrival} (ha : a.FromMote addr) {s : EventStore}
    {hist : List ((PyStr × ℤ) × ℚ)} (h : Covers dedupTtlS a.readings.now hist s.seen.get?) :
    let ideal := labelStep dedupTtlS (eventKey addr) hist (a.copy.burst, a.readings.now)
    (deliver rt s a).2 = ideal.2 ∧
      Covers dedupTtlS a.readings.now ideal.1 (deliver rt s a).1.seen.get? := by
  obtain ⟨g, r, hcopy⟩ := ha
  obtain ⟨hlen, hplain⟩ := gwIdOf_spec g.m3 g.m4 g.m5
  have hmac : asciiText (macKey addr) ≠ [] := by
    rw [asciiText, Ne, List.map_eq_nil_iff, ← List.length_eq_zero_iff, (macKey_spec addr).1]
    decide
  have hread := readFrame_event hrt hplain (List.ne_nil_of_length_pos (by omega)) addr
    r.burst.payload.packetId r.rssi
  obtain ⟨hout, hcov, -⟩ := addEvent_spec h a.readings.nowTouch hmac (asciiText g.gwId)
    r.burst.payload.packetId.toNat r.rssi.toInt
  have hmsg : onMessage rt a.readings (topicText a.copy.message.topic) a.copy.message.payload s
      = ⟨.ok (), (Frame.handle a.readings s (.event (asciiText (macKey addr)) (asciiText g.gwId)
          r.burst.payload.packetId.toNat r.rssi.toInt)).1,
        (Frame.handle a.readings s (.event (asciiText (macKey addr)) (asciiText g.gwId)
          r.burst.payload.packetId.toNat r.rssi.toInt)).2⟩ := by
    rw [onMessage, hcopy, Listener.copyOf]
    simp only [Listener.gwId, hread]
  have hburst : a.copy.burst = r.burst := by rw [hcopy]; rfl
  simp only [labelStep_eq, deliver, hmsg, hburst, eventKey, Frame.handle]
  rw [hout]
  cases hadd : s.addEvent a.readings.now a.readings.nowTouch (asciiText (macKey addr))
      (asciiText g.gwId) r.burst.payload.packetId.toNat r.rssi.toInt with
  | mk s' stored =>
    rw [hadd] at hcov
    cases stored with
    | none => exact ⟨rfl, hcov⟩
    | some stored => exact ⟨rfl, hcov⟩

/-- The burst of a copy with the time it is read. -/
def Arrival.call (a : Arrival) : Burst × ℚ := (a.copy.burst, a.readings.now)

/-- A run of the backend accepts what the window filter accepts. -/
theorem outputs_deliver (hrt : rt.Standard) : ∀ (as : List Arrival) {s : EventStore}
    {hist : List ((PyStr × ℤ) × ℚ)} {clock : ℚ}, Covers dedupTtlS clock hist s.seen.get? →
      (∀ a ∈ as, a.FromMote addr) → (∀ a ∈ as, clock ≤ a.readings.now) →
      as.Pairwise (fun a a' => a.readings.now ≤ a'.readings.now) →
      outputs (deliver rt) s as
        = outputs (labelStep dedupTtlS (eventKey addr)) hist (as.map Arrival.call) := by
  intro as
  induction as with
  | nil =>
    intro s hist clock _ _ _ _
    rfl
  | cons a as ih =>
    intro s hist clock h hfrom hclock hord
    obtain ⟨hnext, hord'⟩ := List.pairwise_cons.mp hord
    obtain ⟨ha, has⟩ := List.forall_mem_cons.mp hfrom
    obtain ⟨hout, hcov⟩ := deliver_spec addr hrt ha (h.later (hclock a (List.mem_cons_self ..)))
    rw [List.map_cons, outputs, outputs, hout, ih hcov has hnext hord']
    rfl

theorem accepted_eq (hrt : rt.Standard) (maxEvents : ℕ) {as : List Arrival}
    (hfrom : ∀ a ∈ as, a.FromMote addr)
    (hord : as.Pairwise fun a a' => a.readings.now ≤ a'.readings.now) :
    accepted rt maxEvents as
      = outputs (labelStep dedupTtlS (eventKey addr)) [] (as.map Arrival.call) := by
  have hempty : ∀ clock, Covers dedupTtlS clock [] (EventStore.init maxEvents).seen.get? :=
    Covers.nil dedupTtlS
  cases as with
  | nil => rfl
  | cons a as =>
    refine outputs_deliver addr hrt (a :: as) (hempty a.readings.now) hfrom ?_ hord
    intro a' ha'
    rcases List.mem_cons.mp ha' with rfl | ha'
    · exact le_rfl
    · exact (List.pairwise_cons.mp hord).1 a' ha'

end Backend

/-! ### End to end -/

/-- Bursts of one run that share a dedup key start two windows apart. -/
theorem apart_of_bursts {es : List MoteEvent} (hord : InOrder es) (addr : BleAddr) {b b' : Burst}
    (hb : b ∈ bursts es) (hb' : b' ∈ bursts es) :
    Apart dedupTtlS (eventKey addr) Burst.start b b' := by
  intro hkey hne
  have hid : b.payload.packetId = b'.payload.packetId := by
    have := (Prod.mk.inj hkey).2
    exact UInt8.toNat_inj.mp (by exact_mod_cast this)
  have hfar := apart_of_same_packetId hord hb hb' hne hid
  have htwo : dedupTtlS + dedupTtlS = 4 := by norm_num [dedupTtlS]
  rwa [htwo]

/-- For every run of the mote, all gateways and every order of arrival: each motion burst that some
    gateway hears is accepted exactly once, and nothing else is accepted. -/
theorem exactly_once {rt : PyRuntime} (hrt : rt.Standard) (maxEvents : ℕ) (addr : BleAddr)
    {es : List MoteEvent} (hes : InOrder es) {gs : List Listener}
    (hgs : ∀ g ∈ gs, g.Ready addr (bursts es)) {as : List Arrival}
    (hcopies : ∀ c, c ∈ as.map Arrival.copy ↔ ∃ g ∈ gs, c ∈ g.copies addr (bursts es))
    (htime : ∀ a ∈ as, a.copy.burst.start ≤ a.readings.now ∧
      a.readings.now < a.copy.burst.start + 2)
    (hclock : as.Pairwise fun a a' => a.readings.now ≤ a'.readings.now) (b : Burst) :
    (accepted rt maxEvents as).count b
      = if b ∈ bursts es ∧ ∃ g ∈ gs, g.hears b ≠ [] then 1 else 0 := by
  have hpay : ∀ b ∈ bursts es, b.payload = bthomePayload (UInt8.ofNat b.number) 1 :=
    fun b hb => payload_eq hb
  have hfrom : ∀ a ∈ as, a.FromMote addr ∧ a.copy.burst ∈ bursts es := by
    intro a ha
    obtain ⟨g, hg, hc⟩ := (hcopies a.copy).mp (List.mem_map_of_mem ha)
    refine ⟨?_, ((exists_copy_iff g addr (hgs g hg) hpay _).mp ⟨_, hc, rfl⟩).1⟩
    rw [copies_eq g addr (hgs g hg) hpay] at hc
    obtain ⟨r, -, hr⟩ := List.mem_map.mp hc
    exact ⟨g, r, hr.symm⟩
  have hmem : b ∈ (as.map Arrival.call).map Prod.fst ↔
      b ∈ bursts es ∧ ∃ g ∈ gs, g.hears b ≠ [] := by
    rw [List.map_map]
    constructor
    · intro h
      obtain ⟨a, ha, rfl⟩ := List.mem_map.mp h
      obtain ⟨g, hg, hc⟩ := (hcopies a.copy).mp (List.mem_map_of_mem ha)
      have hheard := (exists_copy_iff g addr (hgs g hg) hpay _).mp ⟨_, hc, rfl⟩
      exact ⟨hheard.1, g, hg, hheard.2⟩
    · rintro ⟨hb, g, hg, hheard⟩
      obtain ⟨c, hc, rfl⟩ := (exists_copy_iff g addr (hgs g hg) hpay b).mpr ⟨hb, hheard⟩
      obtain ⟨a, ha, rfl⟩ := List.mem_map.mp ((hcopies c).mpr ⟨g, hg, hc⟩)
      exact List.mem_map.mpr ⟨a, ha, rfl⟩
  have hontime : ∀ c ∈ as.map Arrival.call, OnTime dedupTtlS Burst.start c := by
    intro c hc
    obtain ⟨a, ha, rfl⟩ := List.mem_map.mp hc
    exact htime a ha
  have hapart : ∀ c ∈ as.map Arrival.call, ∀ c' ∈ as.map Arrival.call,
      Apart dedupTtlS (eventKey addr) Burst.start c.1 c'.1 := by
    intro c hc c' hc'
    obtain ⟨a, ha, rfl⟩ := List.mem_map.mp hc
    obtain ⟨a', ha', rfl⟩ := List.mem_map.mp hc'
    exact apart_of_bursts hes addr (hfrom a ha).2 (hfrom a' ha').2
  rw [accepted_eq addr hrt maxEvents (fun a ha => (hfrom a ha).1) hclock,
    count_labelStep _ hontime (List.pairwise_map.mpr hclock) hapart b]
  simp only [hmem]

/-! One burst, heard by two gateways that both heard the boot heartbeat. -/

def sampleAddr : BleAddr := #v[0x19, 0xEC, 0x2C, 0x91, 0xE3, 0xF0]

def sampleRun : List MoteEvent := [.interrupt ⟨some wakeSrcWuIa, none, 0, 5, 5⟩]

def sampleGateway (m5 : UInt8) (rssis : List Int8) : Listener :=
  ⟨0xA0, 0xB1, m5, ⟨some 0, true, [], 1⟩, [⟨sampleAddr, -60, 1, 0⟩], 1, fun _ => rssis⟩

def sampleGateways : List Listener := [sampleGateway 1 [-60, -58], sampleGateway 2 [-71]]

def sampleArrivals : List Arrival :=
  (sampleGateways.flatMap fun g => g.copies sampleAddr (bursts sampleRun)).map
    (⟨·, ⟨11 / 2, 11 / 2, 11 / 2⟩⟩)

theorem exactly_once_two_gateways :
    (accepted asciiRuntime 500 sampleArrivals).count ⟨2, bthomePayload 2 1, 5⟩ = 1 := by
  have hgs : ∀ g ∈ sampleGateways, g.Ready sampleAddr (bursts sampleRun) := by
    intro g hg
    simp only [sampleGateways, List.mem_cons, List.not_mem_nil, or_false] at hg
    rcases hg with rfl | rfl
    · exact ⟨by decide +kernel, by decide, by decide +kernel⟩
    · exact ⟨by decide +kernel, by decide, by decide +kernel⟩
  have hcopies : ∀ c, c ∈ sampleArrivals.map Arrival.copy ↔
      ∃ g ∈ sampleGateways, c ∈ g.copies sampleAddr (bursts sampleRun) := by
    intro c
    rw [sampleArrivals, List.map_map, ← List.mem_flatMap]
    simp [Function.comp_def]
  rw [exactly_once asciiRuntime_standard 500 sampleAddr (by decide : InOrder sampleRun) hgs hcopies
    (by decide +kernel) (by decide +kernel)]
  decide +kernel

end SeeedMote.EndToEnd
