import SeeedMote.EndToEnd.ConfigLink
import SeeedMote.Gateway.WifiScan

/-! Choosing a network on the configuration page: the scan, the list that `doScan` of `web_ui.html` makes
    of it, and what the driver gets when the choice is saved,

        records ─ wifi_mgr_scan ─▶ entries ─ JSON ─▶ list ─ click ─▶ ssid ─ trim ─▶ body ─▶ driver

    which is the name chosen, unless the input strips it of line breaks or it is trimmed or cut on the
    way. -/

namespace SeeedMote.EndToEnd
open Lib Gateway Settings WebUi

/-! ### The choice -/

/-- A click on an entry of the list. -/
def pick (decode : CStr → PyStr) (e : ScanEntry) (f : Form) : Form :=
  { f with ssid := .set (decode e.ssid) }

/-- Saving the form gives the driver these credentials, now and at the next boot. -/
def Reaches (api : CJson) (gwId : CStr) (nvs : Nvs) (f : Form) (ssid pass : CStr) : Prop :=
  ∃ m, f.sent = some m ∧
    let r := submitWifi api nvs (.post (postOf m.wifi.bytes true m.wifi.bytes.length))
    CredentialsReach gwId r.2.1 r.2.2 ssid pass

/-- Of credentials that fit the form's limits the SSID is cut to 31 bytes. -/
theorem credentialsReach_iff (gwId : CStr) (nvs : Nvs) {ssid pass : CStr} (hne : ssid ≠ [])
    (hssid : ssid.length ≤ 32) (hpass : pass.length ≤ 63) (hs : 0 ∉ ssid) (hp : 0 ∉ pass)
    {p : Option CStr} (hget : p.getD [] = pass) (target : CStr) :
    CredentialsReach gwId (nvsConfigSaveWifi nvs ssid p) (wifiMgrConnect ssid p) target pass ↔
      ssid.take 31 = target := by
  obtain ⟨hname, hsecret⟩ := staConfig_denotes hs hp
  rw [← hget, ← staConfig_getD] at hname hsecret
  have hself : pass.take 63 = pass := List.take_of_length_le hpass
  have hdenotes : (staConfig ssid p).Denotes target pass ↔ ssid.take 31 = target := by
    rw [StaConfig.Denotes, hname, hsecret, hget, hself]
    exact and_iff_left rfl
  rw [CredentialsReach, staPassed_connect, staPassed_boot gwId nvs p hne hssid (by rw [hget]; omega)]
  simpa using hdenotes

/-- What a pick and a save make of a name. -/
def sentName (name : PyStr) : PyStr := jsTrim (stripNewlines name)

theorem sentName_sublist (name : PyStr) : (sentName name).Sublist name :=
  (jsTrim_sublist _).trans (stripNewlines_sublist name)

/-- A name is sent as it is if there is nothing to strip and nothing to trim. -/
theorem sentName_eq_iff {name : PyStr} (hne : name ≠ []) :
    sentName name = name ↔ OneLine name ∧ Trimmed name := by
  constructor
  · intro h
    have hstrip : stripNewlines name = name := by
      refine (stripNewlines_sublist name).eq_of_length_le ?_
      calc name.length = (sentName name).length := by rw [h]
        _ ≤ (stripNewlines name).length := (jsTrim_sublist _).length_le
    refine ⟨hstrip ▸ oneLine_stripNewlines name, hne, ?_⟩
    rwa [sentName, hstrip] at h
  · rintro ⟨hline, -, htrim⟩
    rw [sentName, stripNewlines_eq hline, htrim]

/-- Sent and cut, a name stays itself exactly if there is nothing to cut either. -/
theorem take_sentName_iff {name : PyStr} (hname : Scalar name) (hne : name ≠ []) :
    (utf8Encode (sentName name)).take 31 = utf8Encode name ↔
      OneLine name ∧ Trimmed name ∧ (utf8Encode name).length ≤ 31 := by
  rw [← and_assoc, ← sentName_eq_iff hne]
  constructor
  · intro h
    have hlen := congrArg List.length h
    have hle := length_utf8Encode_le (sentName_sublist name)
    rw [List.length_take] at hlen
    rw [List.take_of_length_le (by omega)] at h
    have hscalar : Scalar (sentName name) := fun c hc => hname c ((sentName_sublist name).subset hc)
    exact ⟨utf8Encode_injective (fun c hc => (hscalar c hc).1) (fun c hc => (hname c hc).1) h, by omega⟩
  · rintro ⟨hself, hlen⟩
    rw [hself]
    exact List.take_of_length_le hlen

/-- The list shows every network found once, by its strongest access point, and picking a network and
    saving has the driver join it, now and at the next boot, exactly if its name has no line break, no
    blank at its ends and is not of the greatest length. -/
theorem picked_network_joined {api : CJson} (hapi : ReadsBodies api) {decode : CStr → PyStr}
    (hdecode : DecodesUtf8 decode) (gwId : CStr) (nvs : Nvs) {found : List WifiApRecord}
    (hsorted : found.Pairwise fun a b => b.rssi ≤ a.rssi) {f : Form} (hbroker : jsTrim f.broker ≠ [])
    (hpass : FitsText 64 f.wpass) :
    ((wifiMgrScan true found).Pairwise fun a b => a.ssid ≠ b.ssid) ∧
    (∀ r ∈ found.take scanMax, r.ssid ≠ [] →
      ∃ e ∈ wifiMgrScan true found, e.ssid = r.ssid ∧ r.rssi ≤ e.rssi) ∧
    ∀ e ∈ wifiMgrScan true found, ∀ name, Scalar name → e.ssid = utf8Encode name →
      (pick decode e f).wifiBody.bytes.length ≤ 512 →
      (Reaches api gwId nvs (pick decode e f) e.ssid (utf8Encode f.wpass) ↔
        OneLine name ∧ Trimmed name ∧ e.ssid.length ≤ 31) := by
  refine ⟨wifiMgrScan_pairwise, fun r hr hne => ?_, fun e he name hname hssid hbody => ?_⟩
  · obtain ⟨e, he, hkey⟩ := exists_wifiMgrScan hr hne
    exact ⟨e, he, hkey, wifiMgrScan_strongest hsorted he hr hkey.symm⟩
  · obtain ⟨r, -, hne, rfl⟩ := mem_wifiMgrScan he
    have hnul : 0 ∉ utf8Encode name := hssid ▸ r.noNul
    have hlen : (utf8Encode name).length ≤ 32 := hssid ▸ r.length_le
    have hnil : name ≠ [] := by
      rintro rfl
      exact hne hssid
    have hshown : (pick decode r.entry f).ssid = .set name := by
      rw [pick, hssid]
      exact congrArg InputText.set (hdecode name hname)
    have hsent : (pick decode r.entry f).sent =
        if sentName name = [] ∨ jsTrim f.broker = [] then none
        else some ⟨⟨.trim (.set name), f.wpass⟩, f.mqttBody f.broker.trim⟩ := by
      rw [Form.sent, Form.wifiBody, hshown]
      rfl
    rw [Reaches, hsent, hssid]
    by_cases hblank : sentName name = []
    · rw [if_pos (.inl hblank)]
      refine iff_of_false ?_ fun hkept => hnil ?_
      · rintro ⟨m, hm, -⟩
        simp at hm
      · rw [← (sentName_eq_iff hnil).mpr ⟨hkept.1, hkept.2.1⟩, hblank]
    · rw [if_neg (not_or.mpr ⟨hblank, hbroker⟩)]
      have hsub := sentName_sublist name
      have hfits : WifiBody.Fits ⟨.trim (.set name), f.wpass⟩ :=
        { ssid := ⟨fun c hc => hname c (hsub.subset hc),
            fun h0 => zero_notMem_of_utf8Encode hnul (hsub.subset h0),
            Nat.lt_succ_of_le ((length_utf8Encode_le hsub).trans hlen)⟩
          password := ⟨hpass.scalar, hpass.noNul, hpass.fits.trans (by omega)⟩
          length_le := by
            rw [Form.wifiBody, hshown] at hbody
            exact hbody }
      have hcode : utf8Encode (sentName name) ≠ [] := hfits.ssid.encode_ne_nil hblank
      obtain ⟨p, hp, hrun⟩ := submitWifi_of_submits api nvs (hfits.submits hapi le_rfl) hcode
      have hreach := credentialsReach_iff gwId nvs hcode (Nat.le_of_lt_succ hfits.ssid.fits)
        (Nat.le_of_lt_succ hpass.fits)
        (zero_notMem_utf8Encode (fun c hc => (hfits.ssid.scalar c hc).1) hfits.ssid.noNul)
        (zero_notMem_utf8Encode (fun c hc => (hpass.scalar c hc).1) hpass.noNul) hp (utf8Encode name)
      rw [← take_sentName_iff hname hnil, ← hreach]
      simp only [Option.some.injEq, exists_eq_left', hrun]
      rfl

/-- Two access points of the shop, one with a blank in front of its name, one with a line break in it, and
    one of a hidden network. -/
def shopScan : List WifiApRecord :=
  [⟨utf8Encode (py "Café Öst"), -48, .secured, by decide +kernel, by decide +kernel⟩,
    ⟨[], -50, .secured, by decide, by decide⟩,
    ⟨utf8Encode (py " Lobby"), -61, .openNet, by decide +kernel, by decide +kernel⟩,
    ⟨utf8Encode (py "a\nb"), -70, .openNet, by decide +kernel, by decide +kernel⟩,
    ⟨utf8Encode (py "Café Öst"), -77, .secured, by decide +kernel, by decide +kernel⟩]

def cafeEntry : ScanEntry := ⟨utf8Encode (py "Café Öst"), -48, lit "secured"⟩

def lobbyEntry : ScanEntry := ⟨utf8Encode (py " Lobby"), -61, lit "open"⟩

def brokenEntry : ScanEntry := ⟨utf8Encode (py "a\nb"), -70, lit "open"⟩

theorem picked_network_joined_shop :
    wifiMgrScan true shopScan = [cafeEntry, lobbyEntry, brokenEntry] ∧
      Reaches pyJson (gwIdOf 1 2 3) emptyNvs (pick pageText cafeEntry shopForm) cafeEntry.ssid
        (utf8Encode shopForm.wpass) ∧
      ∀ e ∈ [lobbyEntry, brokenEntry], ¬Reaches pyJson (gwIdOf 1 2 3) emptyNvs
        (pick pageText e shopForm) e.ssid (utf8Encode shopForm.wpass) := by
  have hlist : wifiMgrScan true shopScan = [cafeEntry, lobbyEntry, brokenEntry] := by decide +kernel
  have hsorted : shopScan.Pairwise fun a b => b.rssi ≤ a.rssi := by decide +kernel
  have hbroker : jsTrim shopForm.broker ≠ [] := by decide +kernel
  obtain ⟨-, -, hpick⟩ := picked_network_joined readsBodies_pyJson pageText_decodes (gwIdOf 1 2 3)
    emptyNvs hsorted hbroker (by decide +kernel)
  rw [hlist] at hpick
  have hcafe := hpick cafeEntry (List.mem_cons_self ..) (py "Café Öst") (by decide) rfl (by decide +kernel)
  have hlobby := hpick lobbyEntry (by simp) (py " Lobby") (by decide) rfl (by decide +kernel)
  have hbroken := hpick brokenEntry (by simp) (py "a\nb") (by decide) rfl (by decide +kernel)
  refine ⟨hlist, hcafe.mpr (by decide +kernel), fun e he => ?_⟩
  simp only [List.mem_cons, List.not_mem_nil, or_false] at he
  rcases he with rfl | rfl
  · exact fun h => absurd (hlobby.mp h) (by decide +kernel)
  · exact fun h => absurd (hbroken.mp h) (by decide +kernel)

end SeeedMote.EndToEnd
