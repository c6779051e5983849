import SeeedMote.App.Dashboard
import SeeedMote.Lib.GroupBy

/-! The panels of the page: `InteractingCards.tsx`, `Totals.tsx` and the pickup figure of `Header.tsx`,
    each of which makes its own loop over the events of the browser's store.

        events ─┬─▶ Header   distinct motes of the last 30 s
                ├─▶ cards    per mote of the last 30 s: count, latest event
                └─▶ rows     per mote of all events: count, latest event, latest time

    Newest event first, the three loops agree: the header counts the cards, and a row has a card as
    long as its latest time is inside the window. -/

namespace SeeedMote.App
open Lib Dict

def pickupWindowS : ℚ := 30

/-- `fmtAge`, the same in both components. -/
def fmtAge (receivedAt : ℚ) (nowSec : ℤ) : PyStr :=
  let delta := max 0 ⌊nowSec - receivedAt⌋
  if delta < 60 then py (toString delta) ++ py "s 前"
  else if delta < 3600 then py (toString (delta / 60)) ++ py "m 前"
  else py (toString (delta / 3600)) ++ py "h 前"

/-- `ev.source.mote_mac`. -/
def InteractionEvent.mac (ev : InteractionEvent) : PyStr := ev.source.moteMac

/-- `if (!m.has(mac)) m.set(mac, ev)`. -/
def setFirst (m : Dict PyStr InteractionEvent) (ev : InteractionEvent) : Dict PyStr InteractionEvent :=
  if (m.get? ev.mac).isSome then m else m.set ev.mac ev

/-! ### `InteractingCards` -/

structure CardMaps where
  latestByMac : Dict PyStr InteractionEvent
  counts : Dict PyStr ℕ

/-- One turn of the loop over the events. -/
def CardMaps.add (now : ℤ) (m : CardMaps) (ev : InteractionEvent) : CardMaps :=
  if now - ev.receivedAt > pickupWindowS then m
  else
    { counts := m.counts.set ev.mac ((m.counts.get? ev.mac).getD 0 + 1)
      latestByMac := setFirst m.latestByMac ev }

/-- What a card shows. -/
structure Card where
  mac : PyStr
  ev : InteractionEvent
  count : ℕ
  age : PyStr

def interactingCards (events : List InteractionEvent) (now : ℤ) : List Card :=
  let m := events.foldl (CardMaps.add now) ⟨.empty, .empty⟩
  m.latestByMac.entries.map fun e =>
    ⟨e.1, e.2, (m.counts.get? e.1).getD 0, fmtAge e.2.receivedAt now⟩

/-! ### `Totals` -/

structure TotalMaps where
  counts : Dict PyStr ℕ
  latest : Dict PyStr ℚ
  latestEvent : Dict PyStr InteractionEvent

/-- One turn of the loop over the events. -/
def TotalMaps.add (m : TotalMaps) (ev : InteractionEvent) : TotalMaps where
  counts := m.counts.set ev.mac ((m.counts.get? ev.mac).getD 0 + 1)
  latest := m.latest.set ev.mac (max ((m.latest.get? ev.mac).getD 0) ev.receivedAt)
  latestEvent := setFirst m.latestEvent ev

structure TotalsRow where
  mac : PyStr
  n : ℕ
  ev : Option InteractionEvent
  lat : ℚ

/-- `rows`; the sort is stable. -/
def totalsRows (events : List InteractionEvent) : List TotalsRow :=
  let m := events.foldl TotalMaps.add ⟨.empty, .empty, .empty⟩
  (m.counts.entries.mergeSort fun a b => decide (b.2 ≤ a.2)).map fun e =>
    ⟨e.1, e.2, m.latestEvent.get? e.1, (m.latest.get? e.1).getD 0⟩

/-- `subtitle`. -/
def totalsSubtitle (events : List InteractionEvent) (total : ℕ) : PyStr :=
  let buffered := events.length
  if buffered < total then
    py "最近 " ++ py (toString buffered) ++ py " 条事件（会话累计 " ++ py (toString total) ++ py "）"
  else py "本次会话累计 " ++ py (toString total) ++ py " 条"

/-! ### `Header` -/

/-- `activePickups`. -/
def activePickups (events : List InteractionEvent) (now : ℤ) : ℕ :=
  ((events.filter fun ev => now - ev.receivedAt ≤ pickupWindowS).map
    InteractionEvent.mac).eraseDups.length

/-! ### The loops as groupings -/

/-- The events of the window. -/
def inWindow (now : ℤ) (events : List InteractionEvent) : List InteractionEvent :=
  events.filter fun ev => now - ev.receivedAt ≤ pickupWindowS

theorem setFirst_eq (m : Dict PyStr InteractionEvent) (ev : InteractionEvent) :
    setFirst m ev = upsert InteractionEvent.mac firstUpd m ev := by
  rw [setFirst, upsert]
  cases hget : m.get? ev.mac with
  | none => rfl
  | some first =>
    rw [if_pos Option.isSome_some]
    exact (set_of_get? m hget).symm

theorem foldl_cardMaps (now : ℤ) (events : List InteractionEvent) (m : CardMaps) :
    events.foldl (CardMaps.add now) m
      = ⟨(inWindow now events).foldl (upsert InteractionEvent.mac firstUpd) m.latestByMac,
        (inWindow now events).foldl (upsert InteractionEvent.mac countUpd) m.counts⟩ := by
  induction events generalizing m with
  | nil => rfl
  | cons ev events ih =>
    rw [List.foldl_cons, ih, CardMaps.add]
    by_cases hold : now - ev.receivedAt > pickupWindowS
    · have hout : inWindow now (ev :: events) = inWindow now events :=
        List.filter_cons_of_neg (by simpa only [decide_eq_true_eq, not_le] using hold)
      rw [if_pos hold, hout]
    · have hin : inWindow now (ev :: events) = ev :: inWindow now events :=
        List.filter_cons_of_pos (by simpa only [decide_eq_true_eq, not_lt] using hold)
      rw [if_neg hold, hin, List.foldl_cons, List.foldl_cons, ← setFirst_eq]
      rfl

theorem interactingCards_eq (events : List InteractionEvent) (now : ℤ) :
    interactingCards events now
      = (groupBy InteractionEvent.mac firstUpd (inWindow now events)).entries.map fun e =>
          ⟨e.1, e.2, ((groupBy InteractionEvent.mac countUpd (inWindow now events)).get? e.1).getD 0,
            fmtAge e.2.receivedAt now⟩ := by
  rw [interactingCards, foldl_cardMaps]
  rfl

/-- `Math.max(latest.get(mac) ?? 0, ev._received_at)`. -/
def latestUpd (t : Option ℚ) (ev : InteractionEvent) : ℚ := max (t.getD 0) ev.receivedAt

theorem foldl_totalMaps (events : List InteractionEvent) (m : TotalMaps) :
    events.foldl TotalMaps.add m
      = ⟨events.foldl (upsert InteractionEvent.mac countUpd) m.counts,
        events.foldl (upsert InteractionEvent.mac latestUpd) m.latest,
        events.foldl (upsert InteractionEvent.mac firstUpd) m.latestEvent⟩ := by
  induction events generalizing m with
  | nil => rfl
  | cons ev events ih =>
    rw [List.foldl_cons, ih, TotalMaps.add, List.foldl_cons, List.foldl_cons, List.foldl_cons,
      ← setFirst_eq]
    rfl

theorem totalsRows_eq (events : List InteractionEvent) :
    totalsRows events
      = ((groupBy InteractionEvent.mac countUpd events).entries.mergeSort
          fun a b => decide (b.2 ≤ a.2)).map fun e =>
          ⟨e.1, e.2, (groupBy InteractionEvent.mac firstUpd events).get? e.1,
            ((groupBy InteractionEvent.mac latestUpd events).get? e.1).getD 0⟩ := by
  rw [totalsRows, foldl_totalMaps]
  rfl

/-! ### One card, one row -/

theorem card_spec {events : List InteractionEvent} {now : ℤ} {card : Card}
    (h : card ∈ interactingCards events now) :
    card.count = (inWindow now events).countP (·.mac = card.mac) ∧
      (inWindow now events).find? (·.mac = card.mac) = some card.ev := by
  rw [interactingCards_eq] at h
  obtain ⟨⟨mac, ev⟩, hmem, rfl⟩ := List.mem_map.mp h
  have hfirst := (mem_entries_iff _ _ _).mp hmem
  rw [get?_first] at hfirst
  refine ⟨?_, hfirst⟩
  have hpos : 0 < (inWindow now events).countP (·.mac = mac) := by
    have hmac : decide (ev.mac = mac) = true := by simpa using List.find?_some hfirst
    exact List.countP_pos_iff.mpr ⟨ev, List.mem_of_find?_eq_some hfirst, hmac⟩
  rw [(get?_counts InteractionEvent.mac (inWindow now events) mac _).mpr ⟨hpos, rfl⟩]
  rfl

/-- The addresses on the cards, in the order of their latest events. -/
theorem cardMacs_eq (events : List InteractionEvent) (now : ℤ) :
    (interactingCards events now).map Card.mac
      = ((inWindow now events).map InteractionEvent.mac).eraseDups := by
  rw [interactingCards_eq, List.map_map, ← keys_groupBy InteractionEvent.mac firstUpd]
  rfl

theorem exists_card_iff (events : List InteractionEvent) (now : ℤ) (mac : PyStr) :
    (∃ card ∈ interactingCards events now, card.mac = mac) ↔
      ∃ ev ∈ inWindow now events, ev.mac = mac := by
  rw [← List.mem_map, cardMacs_eq, List.mem_eraseDups, List.mem_map]

theorem row_spec {events : List InteractionEvent} {row : TotalsRow} (h : row ∈ totalsRows events) :
    0 < row.n ∧ events.countP (·.mac = row.mac) = row.n ∧
      row.ev = events.find? (·.mac = row.mac) ∧
      row.lat = ((groupBy InteractionEvent.mac latestUpd events).get? row.mac).getD 0 := by
  rw [totalsRows_eq] at h
  obtain ⟨⟨mac, n⟩, hmem, rfl⟩ := List.mem_map.mp h
  have hcount := (mem_entries_iff _ _ _).mp (List.mem_mergeSort.mp hmem)
  obtain ⟨hpos, hn⟩ := (get?_counts _ _ _ _).mp hcount
  exact ⟨hpos, hn, get?_first InteractionEvent.mac events mac, rfl⟩

theorem exists_row_iff (events : List InteractionEvent) (mac : PyStr) :
    (∃ row ∈ totalsRows events, row.mac = mac) ↔ ∃ ev ∈ events, ev.mac = mac := by
  rw [← mem_keys_groupBy InteractionEvent.mac countUpd, totalsRows_eq]
  constructor
  · rintro ⟨row, hrow, rfl⟩
    obtain ⟨e, he, rfl⟩ := List.mem_map.mp hrow
    exact List.mem_map_of_mem (List.mem_mergeSort.mp he)
  · intro h
    obtain ⟨e, he, rfl⟩ := List.mem_map.mp h
    exact ⟨_, List.mem_map_of_mem (List.mem_mergeSort.mpr he), rfl⟩

/-- The most frequent mote stands on top. -/
theorem totalsRows_sorted (events : List InteractionEvent) :
    (totalsRows events).Pairwise fun r r' => r'.n ≤ r.n := by
  rw [totalsRows_eq, List.pairwise_map]
  have hsort : ((groupBy InteractionEvent.mac countUpd events).entries.mergeSort
      fun a b => decide (b.2 ≤ a.2)).Pairwise fun a b => decide (b.2 ≤ a.2) = true := by
    refine List.pairwise_mergeSort ?_ ?_ _
    · intro a b c hab hbc
      simp only [decide_eq_true_eq] at hab hbc ⊢
      omega
    · intro a b
      simp only [Bool.or_eq_true, decide_eq_true_eq]
      omega
  exact hsort.imp fun h => of_decide_eq_true h

/-- The rows add up to the events in the buffer. -/
theorem sum_totalsRows (events : List InteractionEvent) :
    ((totalsRows events).map TotalsRow.n).sum = events.length := by
  rw [totalsRows_eq, List.map_map, ← sum_counts InteractionEvent.mac events]
  exact ((List.mergeSort_perm _ _).map Prod.snd).sum_eq

/-! ### Newest event first -/

/-- `addEvent` puts the newest event in front. -/
def NewestFirst (events : List InteractionEvent) : Prop :=
  events.Pairwise fun a b => b.receivedAt ≤ a.receivedAt

theorem foldl_latestUpd {t : ℚ} {evs : List InteractionEvent} (h : ∀ ev ∈ evs, ev.receivedAt ≤ t) :
    evs.foldl (fun o ev => some (latestUpd o ev)) (some t) = some t := by
  induction evs with
  | nil => rfl
  | cons ev evs ih =>
    obtain ⟨hev, hevs⟩ := List.forall_mem_cons.mp h
    rw [List.foldl_cons, latestUpd, Option.getD_some, max_eq_left hev]
    exact ih hevs

/-- The latest time of a row is that of its latest event. -/
theorem lat_eq {events : List InteractionEvent} (hnewest : NewestFirst events)
    (hpos : ∀ ev ∈ events, 0 ≤ ev.receivedAt) {row : TotalsRow} (h : row ∈ totalsRows events) :
    ∃ ev, events.find? (·.mac = row.mac) = some ev ∧ row.lat = ev.receivedAt := by
  obtain ⟨hn, hcount, -, hlat⟩ := row_spec h
  have hne : events.filter (·.mac = row.mac) ≠ [] := by
    rw [← List.length_pos_iff, ← List.countP_eq_length_filter, hcount]
    exact hn
  obtain ⟨ev, older, hgroup⟩ := List.exists_cons_of_ne_nil hne
  have hord : (ev :: older).Pairwise fun a b => b.receivedAt ≤ a.receivedAt :=
    hgroup ▸ hnewest.filter _
  have hev : 0 ≤ ev.receivedAt :=
    hpos ev (List.mem_of_mem_filter (hgroup ▸ List.mem_cons_self ..))
  refine ⟨ev, ?_, ?_⟩
  · rw [← List.head?_filter, hgroup]
    rfl
  · rw [hlat, get?_groupBy, hgroup, List.foldl_cons, latestUpd, Option.getD_none, max_eq_right hev,
      foldl_latestUpd (List.pairwise_cons.mp hord).1]
    rfl

/-- A mote is in the window exactly when its latest event is. -/
theorem find?_inWindow {events : List InteractionEvent} (hnewest : NewestFirst events) (now : ℤ)
    {mac : PyStr} {ev : InteractionEvent} (h : events.find? (·.mac = mac) = some ev) :
    (inWindow now events).find? (·.mac = mac)
      = if now - ev.receivedAt ≤ pickupWindowS then some ev else none := by
  induction events with
  | nil => simp at h
  | cons e events ih =>
    obtain ⟨hle, hrest⟩ := List.pairwise_cons.mp hnewest
    by_cases hmac : e.mac = mac
    · obtain rfl : e = ev := by simpa [hmac] using h
      split
      · next hin => rw [inWindow, List.filter_cons_of_pos (by simpa using hin)]; simp [hmac]
      · next hout =>
        rw [List.find?_eq_none]
        intro e' he' _
        obtain ⟨hmem, hin⟩ := List.mem_filter.mp he'
        have hle' : e'.receivedAt ≤ e.receivedAt := by
          rcases List.mem_cons.mp hmem with rfl | hmem
          · exact le_rfl
          · exact hle e' hmem
        have hin' : now - e'.receivedAt ≤ pickupWindowS := of_decide_eq_true hin
        exact hout (by linarith)
    · have h' : events.find? (·.mac = mac) = some ev := by simpa [hmac] using h
      rw [inWindow, List.filter_cons]
      split
      · rw [List.find?_cons_of_neg (by simpa using hmac)]
        exact ih hrest h'
      · exact ih hrest h'

/-- The panels agree: the header counts the cards; the rows are sorted and add up to the events; a card
    shows the latest event of its row and counts no more than the row; and a row has a card as long
    as its latest time is in the window. -/
theorem panels_agree {events : List InteractionEvent} (hnewest : NewestFirst events)
    (hpos : ∀ ev ∈ events, 0 ≤ ev.receivedAt) (now : ℤ) :
    activePickups events now = (interactingCards events now).length ∧
      (totalsRows events).Pairwise (fun r r' => r'.n ≤ r.n) ∧
      ((totalsRows events).map TotalsRow.n).sum = events.length ∧
      (∀ card ∈ interactingCards events now, ∃ row ∈ totalsRows events, row.mac = card.mac ∧
        row.ev = some card.ev ∧ card.count ≤ row.n) ∧
      ∀ row ∈ totalsRows events, (∃ card ∈ interactingCards events now, card.mac = row.mac) ↔
        now - row.lat ≤ pickupWindowS := by
  refine ⟨?_, totalsRows_sorted events, sum_totalsRows events, ?_, ?_⟩
  · rw [← List.length_map Card.mac, cardMacs_eq]
    rfl
  · intro card hcard
    obtain ⟨hcount, hfind⟩ := card_spec hcard
    have hev := List.mem_of_find?_eq_some hfind
    have hmac : card.ev.mac = card.mac := by simpa using List.find?_some hfind
    obtain ⟨row, hrow, hrmac⟩ := (exists_row_iff events card.mac).mpr
      ⟨card.ev, List.mem_of_mem_filter hev, hmac⟩
    obtain ⟨-, hn, hrev, -⟩ := row_spec hrow
    obtain ⟨ev, hfound, -⟩ := lat_eq hnewest hpos hrow
    have hwindow := find?_inWindow hnewest now (hrmac ▸ hfound)
    rw [hfind] at hwindow
    refine ⟨row, hrow, hrmac, ?_, ?_⟩
    · split at hwindow
      · rw [hrev, hfound, Option.some.inj hwindow]
      · simp at hwindow
    · rw [hcount, ← hn, hrmac]
      exact List.Sublist.countP_le List.filter_sublist
  · intro row hrow
    obtain ⟨ev, hfound, hlat⟩ := lat_eq hnewest hpos hrow
    have hwindow := find?_inWindow hnewest now hfound
    rw [exists_card_iff, hlat]
    constructor
    · rintro ⟨e, he, hmac⟩
      by_contra hout
      rw [if_neg hout, List.find?_eq_none] at hwindow
      exact hwindow e he (by simpa using hmac)
    · intro hin
      rw [if_pos hin] at hwindow
      exact ⟨ev, List.mem_of_find?_eq_some hwindow, by simpa using List.find?_some hwindow⟩

/-- Three pickups of two motes; the oldest is out of the window. -/
def shownEvents : List InteractionEvent :=
  [(py "f0e3912cec19", 100), (py "f0e3912cec20", 95), (py "f0e3912cec19", 40)].map fun e =>
    emptyCatalog.project ⟨e.1, py "gw-a", -60, 1, e.2⟩

theorem panels_agree_two_motes :
    activePickups shownEvents 101 = (interactingCards shownEvents 101).length ∧
    ((totalsRows shownEvents).map TotalsRow.n).sum = 3 ∧
    ∀ row ∈ totalsRows shownEvents, (∃ card ∈ interactingCards shownEvents 101, card.mac = row.mac) ↔
      101 - row.lat ≤ pickupWindowS := by
  have hnewest : NewestFirst shownEvents := by
    rw [NewestFirst, shownEvents]
    decide +kernel
  obtain ⟨hcount, -, hsum, -, hwindow⟩ := panels_agree hnewest (by decide +kernel) 101
  exact ⟨hcount, hsum, hwindow⟩

end SeeedMote.App
