import SeeedMote.EndToEnd.LocateLink
import SeeedMote.EndToEnd.MessageLink
import SeeedMote.Gateway.WebUi

/-! Configuration pages, the console and one gateway. Any number of pages load the status at any time
    (on opening, and for twenty seconds after a save), and a save takes two requests:

        click ── POST /api/wifi ──▶ answer ── POST /api/mqtt ──▶ answer ── 已保存
                 ssid, wpass                  broker of the click, mport and mpass of now

    A request is answered, or the page gives it up, and then it has been handled by that time or never
    is. The gateway handles one at a time, and boots between them. -/

namespace SeeedMote.EndToEnd
open Lib App Gateway Settings WebUi

/-! ### Pages -/

/-- What a save is waiting for; `reply` is `r.ok` once the gateway has handled the request. -/
inductive Saving where
  | wifi (body : WifiBody) (broker : InputText) (reply : Option Bool)
  | mqtt (sent : Sent) (reply : Option Bool)
  deriving DecidableEq

/-- What `saveAll` tells the user. -/
inductive SaveMsg where
  | needSsid
  | needBroker
  | saved
  | failed
  deriving DecidableEq

/-- `loads` are the status requests on their way, each with the reply once it is given. -/
structure ConfigPage where
  form : Form
  loads : List (Option GwConfig)
  saving : Option Saving
  msg : Option SaveMsg

def ConfigPage.opened : ConfigPage := ⟨.fresh, [none], none, none⟩

/-- `saveAll`, up to the first request. -/
def ConfigPage.saveAll (p : ConfigPage) : ConfigPage :=
  if jsTrim p.form.ssid = [] then { p with msg := some .needSsid }
  else if jsTrim p.form.broker = [] then { p with msg := some .needBroker }
  else { p with saving := some (.wifi p.form.wifiBody p.form.broker.trim none), msg := none }

/-- `saveAll` goes on with an answer. -/
def ConfigPage.resume (p : ConfigPage) : Saving → ConfigPage
  | .wifi body broker (some true) =>
    { p with saving := some (.mqtt ⟨body, p.form.mqttBody broker⟩ none) }
  | .mqtt _ (some true) => { p with saving := none, msg := some .saved }
  | _ => { p with saving := none, msg := some .failed }

/-! ### Pages and gateway -/

/-- `said` is what the last save reported has sent, until something else is submitted; `ι` are the
    browser tabs. -/
structure Setup (ι : Type) where
  session : Session
  pages : ι → ConfigPage
  said : Option Sent

/-- No page is saving. -/
def Setup.Idle {ι : Type} (s : Setup ι) : Prop := ∀ i, (s.pages i).saving = none

instance {ι : Type} [Fintype ι] (s : Setup ι) : Decidable s.Idle :=
  inferInstanceAs (Decidable (∀ i, (s.pages i).saving = none))

inductive SetupEvent (ι : Type) where
  | opened (i : ι)
  | edit (i : ι) (form : Form)
  /-- `loadStatus` asks, the gateway answers request `k`, the page takes the answer or gives up. -/
  | poll (i : ι)
  | status (i : ι) (k : ℕ)
  | loaded (i : ι) (k : ℕ)
  | loadFailed (i : ι) (k : ℕ)
  | click (i : ι)
  /-- The gateway handles the page's request, with `n` bytes of the body there. -/
  | handled (i : ι) (mallocOk : Bool) (n : ℕ) (initOk : Bool)
  | answered (i : ι)
  | failed (i : ι)
  | wifiConnect (argv : List CStr)
  | mqttConnect (argv : List CStr) (initOk : Bool)
  | nvsClear
  | gotIp (initOk : Bool)
  | staDisconnected
  | mqttLink (up : Bool)
  | reboot

section System
variable {ι : Type} [DecidableEq ι]

def Setup.start (gwId : CStr) (nvs : Nvs) : Setup ι := ⟨appMain gwId nvs, fun _ => .opened, none⟩

def Setup.setPage (s : Setup ι) (i : ι) (p : ConfigPage) : Setup ι :=
  { s with pages := Function.update s.pages i p }

/-- The request of a page, handled. -/
def Setup.handle (api : CJson) (castDouble : Option ℚ → UInt16) (s : Setup ι) (i : ι) (mallocOk : Bool)
    (n : ℕ) (initOk : Bool) : Option (Setup ι) :=
  match (s.pages i).saving with
  | some (.wifi body broker none) =>
    let r := submitWifi api s.session.nvs (.post (postOf body.bytes mallocOk n))
    some ({ s with session := { s.session with nvs := r.2.1 } }.setPage i
      { s.pages i with saving := some (.wifi body broker (some r.1)) })
  | some (.mqtt sent none) =>
    let r := submitMqtt api castDouble initOk s.session (.post (postOf sent.mqtt.bytes mallocOk n))
    some ({ s with session := r.2 }.setPage i { s.pages i with saving := some (.mqtt sent (some r.1)) })
  | _ => none

/-- The page goes on with the answer to its request. -/
def Setup.answer (s : Setup ι) (i : ι) : Option (Setup ι) :=
  match (s.pages i).saving with
  | some (.wifi body broker (some ok)) =>
    some (s.setPage i ((s.pages i).resume (.wifi body broker (some ok))))
  | some (.mqtt sent (some ok)) =>
    some { s.setPage i ((s.pages i).resume (.mqtt sent (some ok))) with
      said := if ok then some sent else s.said }
  | _ => none

def setupStep (api : CJson) (castDouble : Option ℚ → UInt16) (decode : CStr → PyStr) (s : Setup ι) :
    SetupEvent ι → Option (Setup ι)
  | .opened i => if (s.pages i).saving = none then some (s.setPage i .opened) else none
  | .edit i form => some (s.setPage i { s.pages i with form })
  | .poll i => some (s.setPage i { s.pages i with loads := (s.pages i).loads ++ [none] })
  | .status i k =>
    match (s.pages i).loads[k]? with
    | some none => some (s.setPage i
        { s.pages i with loads := (s.pages i).loads.set k (some (handleStatus s.session.nvs)) })
    | _ => none
  | .loaded i k =>
    match (s.pages i).loads[k]? with
    | some (some cfg) => some (s.setPage i
        { s.pages i with
          form := (s.pages i).form.load decode cfg
          loads := (s.pages i).loads.eraseIdx k })
    | _ => none
  | .loadFailed i k =>
    some (s.setPage i { s.pages i with loads := (s.pages i).loads.eraseIdx k })
  | .click i =>
    if (s.pages i).saving = none then
      let p := (s.pages i).saveAll
      some { s.setPage i p with said := if p.saving = none then s.said else none }
    else none
  | .handled i mallocOk n initOk => s.handle api castDouble i mallocOk n initOk
  | .answered i => s.answer i
  | .failed i =>
    if (s.pages i).saving = none then none
    else some (s.setPage i { s.pages i with saving := none, msg := some .failed })
  | .wifiConnect argv =>
    some { s with
      session := { s.session with nvs := (submitWifi api s.session.nvs (.console argv)).2.1 }
      said := none }
  | .mqttConnect argv initOk =>
    some { s with
      session := (submitMqtt api castDouble initOk s.session (.console argv)).2
      said := none }
  | .nvsClear => some { s with session := { s.session with nvs := emptyNvs }, said := none }
  | .gotIp initOk => some { s with session := sessionStep s.session (.gotIp initOk) }
  | .staDisconnected => some { s with session := sessionStep s.session .staDisconnected }
  | .mqttLink up => some { s with session := sessionStep s.session (.mqttLink up) }
  | .reboot => some { s with session := appMain s.session.gwId s.session.nvs }

/-! ### Runs that keep to the rules -/

/-- The request of a save. -/
def Saving.body : Saving → CStr
  | .wifi body _ _ => body.bytes
  | .mqtt sent _ => sent.mqtt.bytes

/-- The second body of a save fits, if that is what comes next. -/
def Saving.NextFits (form : Form) : Saving → Prop
  | .wifi _ broker (some true) => (form.mqttBody broker).Fits
  | _ => True

instance (form : Form) (v : Saving) : Decidable (v.NextFits form) := by
  unfold Saving.NextFits
  split <;> infer_instance

/-- One save at a time and no command meanwhile, texts that fit the gateway, bodies that arrive whole or
    not at all. -/
def Exclusive (s : Setup ι) : SetupEvent ι → Prop
  | .click i => s.Idle ∧ (s.pages i).form.wifiBody.Fits
  | .handled i _ n _ => ∀ v ∈ (s.pages i).saving, n = 0 ∨ v.body.length ≤ n
  | .answered i => ∀ v ∈ (s.pages i).saving, v.NextFits (s.pages i).form
  | .wifiConnect _ => s.Idle
  | .mqttConnect _ _ => s.Idle
  | .nvsClear => s.Idle
  | _ => True

instance [Fintype ι] (s : Setup ι) (e : SetupEvent ι) : Decidable (Exclusive s e) := by
  cases e <;> unfold Exclusive <;> infer_instance

end System

/-! ### What is kept -/

section Kept
variable {ι : Type}

/-- A save on its way: what it has sent fits, and what has been accepted is in the keys. -/
def Saving.Ok (nvs : Nvs) : Saving → Prop
  | .wifi body broker reply => Trimmed body.ssid ∧ Trimmed broker ∧ body.Fits ∧
      (reply = some true → (nvsConfigLoad nvs).wifi? = some body.settings)
  | .mqtt sent reply => sent.Fits ∧ (nvsConfigLoad nvs).wifi? = some sent.wifi.settings ∧
      (reply = some true → (nvsConfigLoad nvs).mqtt? = some sent.mqtt.settings)

structure SetupInv (s : Setup ι) : Prop where
  one : ∀ i j, (s.pages i).saving ≠ none → (s.pages j).saving ≠ none → i = j
  ok : ∀ i v, (s.pages i).saving = some v → v.Ok s.session.nvs
  said : ∀ m, s.said = some m → s.Idle ∧ m.Fits ∧ Holds s.session.nvs m

variable {s s' : Setup ι}

theorem setupInv_start (gwId : CStr) (nvs : Nvs) : SetupInv (ι := ι) (.start gwId nvs) where
  one := fun _ _ h => absurd rfl h
  ok := nofun
  said := nofun

/-- The keys stay, whatever else the session does. -/
theorem SetupInv.setSession (h : SetupInv s) {session : Session} (hnvs : session.nvs = s.session.nvs) :
    SetupInv { s with session } := by
  refine ⟨h.one, fun i v hv => ?_, fun m hm => ?_⟩
  · rw [hnvs]
    exact h.ok i v hv
  · rw [hnvs]
    exact h.said m hm

/-- The console changes the keys while no page is saving. -/
theorem SetupInv.command (h : SetupInv s) (hidle : s.Idle) (session : Session) :
    SetupInv { s with session, said := none } :=
  ⟨h.one, fun i _ hv => absurd ((hidle i).symm.trans hv) nofun, nofun⟩

/-- A save is reported. -/
theorem SetupInv.report (h : SetupInv s) (hidle : s.Idle) {m : Sent} (hm : m.Fits)
    (hholds : Holds s.session.nvs m) : SetupInv { s with said := some m } := by
  refine ⟨h.one, h.ok, fun m' hm' => ?_⟩
  obtain rfl := Option.some.inj hm'
  exact ⟨hidle, hm, hholds⟩

variable [DecidableEq ι]

/-- A page does something that is not about saving. -/
theorem SetupInv.setPage (h : SetupInv s) {i : ι} {p : ConfigPage}
    (hp : p.saving = (s.pages i).saving) : SetupInv (s.setPage i p) := by
  have hsame : ∀ j, ((s.setPage i p).pages j).saving = (s.pages j).saving := by
    intro j
    by_cases hj : j = i
    · subst hj
      simpa [Setup.setPage] using hp
    · simp [Setup.setPage, hj]
  refine ⟨fun j k => ?_, fun j v => ?_, fun m hm => ?_⟩
  · rw [hsame, hsame]
    exact h.one j k
  · rw [hsame]
    exact h.ok j v
  · obtain ⟨hidle, hrest⟩ := h.said m hm
    exact ⟨fun j => (hsame j).trans (hidle j), hrest⟩

/-- Only one page is saving, and it goes on. -/
theorem SetupInv.proceed (h : SetupInv s) {i : ι} {v : Saving} (hi : (s.pages i).saving = some v)
    {session : Session} {p : ConfigPage} (hp : ∀ w ∈ p.saving, w.Ok session.nvs) :
    SetupInv ({ s with session }.setPage i p) := by
  have hone : ∀ j, (s.pages j).saving ≠ none → j = i := fun j hj =>
    h.one j i hj (by rw [hi]; exact nofun)
  have hsaid : s.said = none := by
    cases hm : s.said with
    | none => rfl
    | some m => exact absurd (((h.said m hm).1 i).symm.trans hi) nofun
  have hpage : ∀ j, ((({ s with session } : Setup ι).setPage i p).pages j).saving ≠ none → j = i := by
    intro j hj
    by_contra hne
    exact hne (hone j (by simpa [Setup.setPage, hne] using hj))
  refine ⟨fun j k hj hk => (hpage j hj).trans (hpage k hk).symm, fun j w hw => ?_, fun m hm => ?_⟩
  · obtain rfl := hpage j (by rw [hw]; exact nofun)
    exact hp w (by simpa [Setup.setPage] using hw)
  · exact absurd (hsaid.symm.trans hm) nofun

/-- A save begins. -/
theorem setupInv_begin {i : ι} (hidle : s.Idle) {p : ConfigPage}
    (hp : ∀ w ∈ p.saving, w.Ok s.session.nvs) : SetupInv { s.setPage i p with said := none } := by
  have hpage : ∀ j, ((s.setPage i p).pages j).saving ≠ none → j = i := by
    intro j hj
    by_contra hne
    refine hj ?_
    simpa [Setup.setPage, hne] using hidle j
  refine ⟨fun j k hj hk => (hpage j hj).trans (hpage k hk).symm, fun j w hw => ?_, nofun⟩
  obtain rfl := hpage j (by rw [hw]; exact nofun)
  exact hp w (by simpa [Setup.setPage] using hw)

theorem setupInv_click (h : SetupInv s) {i : ι} (hok : Exclusive s (.click i)) :
    SetupInv { s.setPage i (s.pages i).saveAll with
      said := if ((s.pages i).saveAll).saving = none then s.said else none } := by
  obtain ⟨hidle, hfits⟩ := hok
  rw [ConfigPage.saveAll]
  split
  · rw [if_pos (hidle i)]
    exact h.setPage rfl
  · next hssid =>
    split
    · rw [if_pos (hidle i)]
      exact h.setPage rfl
    · next hbroker =>
      refine setupInv_begin hidle fun w hw => ?_
      obtain rfl := Option.some.inj hw
      exact ⟨trimmed_jsTrim hssid, trimmed_jsTrim hbroker, hfits, nofun⟩

theorem setupInv_answer (h : SetupInv s) {i : ι} (hok : Exclusive s (.answered i))
    (hs : s.answer i = some s') : SetupInv s' := by
  rw [Setup.answer] at hs
  split at hs
  · next body broker ok hi =>
    obtain rfl := Option.some.inj hs
    obtain ⟨hssid, hbroker, hfits, hreply⟩ := h.ok i _ hi
    cases ok with
    | false => exact h.proceed hi nofun
    | true =>
      refine h.proceed hi fun w hw => ?_
      obtain rfl := Option.some.inj hw
      exact ⟨⟨hssid, hbroker, hfits, hok _ hi⟩, hreply rfl, nofun⟩
  · next sent ok hi =>
    obtain rfl := Option.some.inj hs
    obtain ⟨hfits, hwifi, hreply⟩ := h.ok i _ hi
    cases ok with
    | false => exact h.proceed hi nofun
    | true =>
      have hnext : SetupInv (s.setPage i ((s.pages i).resume (.mqtt sent (some true)))) :=
        h.proceed hi nofun
      refine hnext.report (fun j => ?_) hfits ⟨hwifi, hreply rfl⟩
      by_cases hj : j = i
      · subst hj
        simp [Setup.setPage, ConfigPage.resume]
      · by_contra hsaving
        exact hj (h.one j i (by simpa [Setup.setPage, hj] using hsaving) (by rw [hi]; exact nofun))
  · simp at hs

/-- Saving the MQTT settings leaves the credentials. -/
theorem load_wifi_saveMqtt (nvs : Nvs) (broker : CStr) (port : UInt16) (pass : Option CStr) :
    (nvsConfigLoad (nvsConfigSaveMqtt nvs broker port pass)).wifi? = (nvsConfigLoad nvs).wifi? := rfl

/-- A request is refused unread, or its body is there as a whole. -/
theorem read_or_refused {body : CStr} (mallocOk : Bool) {n : ℕ} (hn : n = 0 ∨ body.length ≤ n) :
    readBody (postOf body mallocOk n) = none ∨ mallocOk = true ∧ body.length ≤ n := by
  rcases hn with rfl | hwhole
  · exact .inl (by simp [readBody, postOf])
  · cases mallocOk with
    | false => exact .inl (by simp [readBody, postOf])
    | true => exact .inr ⟨rfl, hwhole⟩

variable {api : CJson} {castDouble : Option ℚ → UInt16} {decode : CStr → PyStr}

theorem setupInv_handle (hapi : ReadsBodies api) (hcast : DropsFraction castDouble) (h : SetupInv s)
    {i : ι} {n : ℕ} {mallocOk initOk : Bool} (hok : Exclusive s (.handled i mallocOk n initOk))
    (hs : s.handle api castDouble i mallocOk n initOk = some s') : SetupInv s' := by
  rw [Setup.handle] at hs
  split at hs
  · next body broker hi =>
    obtain ⟨hssid, hbroker, hfits, -⟩ := h.ok i _ hi
    have harrived : n = 0 ∨ body.bytes.length ≤ n := hok _ hi
    rcases read_or_refused mallocOk harrived with hnone | ⟨rfl, hwhole⟩
    · simp only [submitWifi_of_unread api s.session.nvs hnone] at hs
      obtain rfl := Option.some.inj hs
      refine h.proceed hi fun w hw => ?_
      obtain rfl := Option.some.inj hw
      exact ⟨hssid, hbroker, hfits, nofun⟩
    · have hsub := hfits.submits hapi hwhole
      obtain ⟨pass, hpass, hrun⟩ := submitWifi_of_submits api s.session.nvs hsub
        (hfits.ssid.encode_ne_nil hssid.1)
      simp only [hrun] at hs
      obtain rfl := Option.some.inj hs
      refine h.proceed hi fun w hw => ?_
      obtain rfl := Option.some.inj hw
      exact ⟨hssid, hbroker, hfits, fun _ => hfits.load hssid.1 _ hpass⟩
  · next sent hi =>
    obtain ⟨hfits, hwifi, -⟩ := h.ok i _ hi
    have harrived : n = 0 ∨ sent.mqtt.bytes.length ≤ n := hok _ hi
    rcases read_or_refused mallocOk harrived with hnone | ⟨rfl, hwhole⟩
    · simp only [submitMqtt_of_unread api castDouble initOk s.session hnone] at hs
      obtain rfl := Option.some.inj hs
      refine h.proceed hi fun w hw => ?_
      obtain rfl := Option.some.inj hw
      exact ⟨hfits, hwifi, nofun⟩
    · have hsub := hfits.mqtt.submits hapi hwhole
      obtain ⟨pass, hpass, hrun⟩ := submitMqtt_of_submits hcast initOk s.session hsub
        (hfits.mqtt.broker.encode_ne_nil hfits.broker.1)
      simp only [hrun] at hs
      obtain rfl := Option.some.inj hs
      refine h.proceed hi fun w hw => ?_
      obtain rfl := Option.some.inj hw
      exact ⟨hfits, (load_wifi_saveMqtt _ _ _ _).trans hwifi, fun _ =>
        hfits.mqtt.load hfits.broker.1 _ hpass⟩
  · simp at hs

theorem setupInv_step (hapi : ReadsBodies api) (hcast : DropsFraction castDouble) (h : SetupInv s)
    {e : SetupEvent ι} (hok : Exclusive s e) (hs : setupStep api castDouble decode s e = some s') :
    SetupInv s' := by
  cases e with
  | opened i =>
    rw [setupStep] at hs
    split at hs
    · next hi =>
      obtain rfl := Option.some.inj hs
      exact h.setPage hi.symm
    · simp at hs
  | edit i form =>
    obtain rfl := Option.some.inj hs
    exact h.setPage rfl
  | poll i =>
    obtain rfl := Option.some.inj hs
    exact h.setPage rfl
  | status i k =>
    rw [setupStep] at hs
    split at hs
    · obtain rfl := Option.some.inj hs
      exact h.setPage rfl
    · simp at hs
  | loaded i k =>
    rw [setupStep] at hs
    split at hs
    · obtain rfl := Option.some.inj hs
      exact h.setPage rfl
    · simp at hs
  | loadFailed i k =>
    obtain rfl := Option.some.inj hs
    exact h.setPage rfl
  | click i =>
    rw [setupStep] at hs
    split at hs
    · obtain rfl := Option.some.inj hs
      exact setupInv_click h hok
    · simp at hs
  | handled i mallocOk n initOk => exact setupInv_handle hapi hcast h hok hs
  | answered i => exact setupInv_answer h hok hs
  | failed i =>
    rw [setupStep] at hs
    split at hs
    · simp at hs
    · next hi =>
      obtain rfl := Option.some.inj hs
      obtain ⟨v, hv⟩ := Option.ne_none_iff_exists'.mp hi
      exact h.proceed hv nofun
  | wifiConnect argv =>
    obtain rfl := Option.some.inj hs
    exact h.command hok _
  | mqttConnect argv initOk =>
    obtain rfl := Option.some.inj hs
    exact h.command hok _
  | nvsClear =>
    obtain rfl := Option.some.inj hs
    exact h.command hok _
  | gotIp initOk =>
    obtain rfl := Option.some.inj hs
    refine h.setSession ?_
    by_cases hstart : s.session.onConnect = true ∧ s.session.savedCfg.hasMqtt = true
    · exact (gotIp_starts hstart.1 hstart.2 initOk).2.1
    · obtain ⟨w, o, hsame⟩ := gotIp_quiet hstart initOk
      rw [sessionStep, hsame]
  | staDisconnected =>
    obtain rfl := Option.some.inj hs
    exact h.setSession rfl
  | mqttLink up =>
    obtain rfl := Option.some.inj hs
    exact h.setSession rfl
  | reboot =>
    obtain rfl := Option.some.inj hs
    exact h.setSession rfl

end Kept

/-! ### Every run -/

theorem valueString_of_noNul {t : PyStr} (ht : Scalar t) (h0 : 0 ∉ t) : valueString t = utf8Encode t :=
  List.takeWhile_eq_self_iff.mpr fun b hb => by
    have hnot := zero_notMem_utf8Encode (fun c hc => (ht c hc).1) h0
    simpa using fun hzero : b = 0 => hnot (hzero ▸ hb)

theorem parse_pyJson (text : CStr) : pyJson.parse text = (loads asciiRuntime text).toOption := rfl

theorem readsBodies_pyJson : ReadsBodies pyJson where
  wifi := by
    intro b hssid h0 hpass h0'
    have hscalar : ∀ m ∈ [(py "ssid", JsValue.str b.ssid.text), (py "password", .str b.password)],
        Scalar m.1 ∧ m.2.Reads asciiRuntime := by
      intro m hm
      simp only [List.mem_cons, List.not_mem_nil, or_false] at hm
      rcases hm with rfl | rfl
      · exact ⟨(by decide : Scalar (py "ssid")), hssid⟩
      · exact ⟨(by decide : Scalar (py "password")), hpass⟩
    have hread := loads_stringify asciiRuntime_standard.depth (by simp) hscalar
    refine ⟨.dict [(py "ssid", .str b.ssid), (py "password", .str b.password)], ?_, ?_, .str b.password,
      rfl, ?_⟩
    · rw [parse_pyJson, WifiBody.bytes, hread]
      rfl
    · exact congrArg some (valueString_of_noNul hssid h0)
    · exact congrArg some (valueString_of_noNul hpass h0')
  mqtt := by
    intro b hbroker h0 hpass h0' hpos hlt
    have hdigits : (fmtUnsigned b.port.natAbs).length ≤ 5 :=
      length_fmtUnsigned_le (by norm_num) (by omega)
    have hscalar : ∀ m ∈ [(py "broker", JsValue.str b.broker), (py "port", .int b.port),
        (py "password", .str b.password)], Scalar m.1 ∧ m.2.Reads asciiRuntime := by
      intro m hm
      simp only [List.mem_cons, List.not_mem_nil, or_false] at hm
      rcases hm with rfl | rfl | rfl
      · exact ⟨(by decide : Scalar (py "broker")), hbroker⟩
      · exact ⟨(by decide : Scalar (py "port")), tooManyDigits_false asciiRuntime_standard (by omega)⟩
      · exact ⟨(by decide : Scalar (py "password")), hpass⟩
    have hread := loads_stringify asciiRuntime_standard.depth (by simp) hscalar
    refine ⟨.dict [(py "broker", .str b.broker), (py "port", .int b.port), (py "password", .str b.password)],
      ?_, ?_, ⟨.int b.port, rfl, rfl, rfl⟩, .str b.password, rfl, ?_⟩
    · rw [parse_pyJson, MqttBody.bytes, hread]
      rfl
    · exact congrArg some (valueString_of_noNul hbroker h0)
    · exact congrArg some (valueString_of_noNul hpass h0')

/-- A page's strings, where the bytes are UTF-8. -/
def pageText (b : CStr) : PyStr := (utf8Decode b).getD []

theorem pageText_decodes : DecodesUtf8 pageText := fun t ht => by
  rw [pageText, utf8Decode_encode fun c hc => (ht c hc).1]
  rfl

/-- The phone that sets the gateway up, and a laptop. -/
inductive Tab where
  | phone
  | laptop
  deriving DecidableEq

instance : Fintype Tab := ⟨{.phone, .laptop}, fun t => by cases t <;> decide⟩

def shopForm : Form where
  ssid := .set (py " Café \"Öst\" ")
  wpass := .set (py "水 & brød")
  broker := .set (py "10.0.0.2 ")
  mport := py "1884"
  mpass := .set []

/-- The phone saves while the laptop loads, and the gateway boots. -/
def shopRun : List (SetupEvent Tab) :=
  [.status .phone 0, .loaded .phone 0, .edit .phone shopForm, .click .phone, .handled .phone true 512 true,
    .answered .phone, .status .laptop 0, .handled .phone true 512 true, .answered .phone, .reboot,
    .loaded .laptop 0]

end SeeedMote.EndToEnd
