import SeeedMote.Gateway.WifiMgr
import SeeedMote.Lib.Firsts

/-! The networks in reach, `wifi_mgr_scan` of `wifi_mgr.c`. Of the driver's records the first twenty are
    looked at, one after the other; a record without a name is passed over, and so is one whose name a
    record before it has. -/

namespace SeeedMote.Gateway
open Lib

/-! ### The scan -/

/-- `wifi_ap_record_t`; the name is a C string in a field of 33 bytes. -/
structure WifiApRecord where
  ssid : CStr
  rssi : Int8
  authmode : WifiAuthMode
  noNul : 0 ∉ ssid
  length_le : ssid.length ≤ 32

/-- An object of the reply. -/
structure ScanEntry where
  ssid : CStr
  rssi : Int8
  auth : CStr
  deriving DecidableEq

def WifiApRecord.entry (r : WifiApRecord) : ScanEntry where
  ssid := r.ssid
  rssi := r.rssi
  auth := if r.authmode = .openNet then lit "open" else lit "secured"

/-- The loop of `wifi_mgr_scan`, with the records it has passed. -/
def scanLoop (passed : List WifiApRecord) : List WifiApRecord → List ScanEntry
  | [] => []
  | r :: rest =>
    if r.ssid = [] then scanLoop (passed ++ [r]) rest
    else if ∃ p ∈ passed, p.ssid = r.ssid then scanLoop (passed ++ [r]) rest
    else r.entry :: scanLoop (passed ++ [r]) rest

/-- Records looked at. -/
def scanMax : ℕ := 20

/-- `wifi_mgr_scan`; the driver's calls succeed. -/
def wifiMgrScan (callocOk : Bool) (found : List WifiApRecord) : List ScanEntry :=
  if callocOk then scanLoop [] (found.take scanMax) else []

/-- The records that are the first with their name, and have one. -/
theorem scanLoop_eq (passed rest : List WifiApRecord) :
    scanLoop passed rest
      = ((firstsAfter WifiApRecord.ssid passed rest).filter (·.ssid ≠ [])).map WifiApRecord.entry := by
  induction rest generalizing passed with
  | nil => rfl
  | cons r rest ih =>
    rw [scanLoop, firstsAfter, ih]
    by_cases hseen : ∃ p ∈ passed, p.ssid = r.ssid
    · rw [if_pos hseen, if_pos hseen, ite_self]
    · rw [if_neg hseen, if_neg hseen]
      by_cases hnil : r.ssid = []
      · rw [if_pos hnil, List.filter_cons_of_neg (by simpa using hnil)]
      · rw [if_neg hnil, List.filter_cons_of_pos (by simpa using hnil), List.map_cons]

section List
variable {found : List WifiApRecord}

theorem mem_wifiMgrScan {e : ScanEntry} (he : e ∈ wifiMgrScan true found) :
    ∃ r ∈ firstsAfter WifiApRecord.ssid [] (found.take scanMax), r.ssid ≠ [] ∧ r.entry = e := by
  rw [wifiMgrScan, if_pos rfl, scanLoop_eq] at he
  obtain ⟨r, hr, rfl⟩ := List.mem_map.mp he
  obtain ⟨hfirst, hne⟩ := List.mem_filter.mp hr
  exact ⟨r, hfirst, by simpa using hne, rfl⟩

/-- No name twice. -/
theorem wifiMgrScan_pairwise : (wifiMgrScan true found).Pairwise fun a b => a.ssid ≠ b.ssid := by
  rw [wifiMgrScan, if_pos rfl, scanLoop_eq]
  exact List.pairwise_map.mpr (pairwise_firstsAfter.filter _)

/-- No name is missed. -/
theorem exists_wifiMgrScan {r : WifiApRecord} (hr : r ∈ found.take scanMax) (hne : r.ssid ≠ []) :
    ∃ e ∈ wifiMgrScan true found, e.ssid = r.ssid := by
  obtain ⟨first, hfirst, hkey⟩ : ∃ first ∈ firstsAfter WifiApRecord.ssid [] (found.take scanMax),
      first.ssid = r.ssid := exists_firstsAfter hr
  rw [wifiMgrScan, if_pos rfl, scanLoop_eq]
  refine ⟨first.entry, List.mem_map_of_mem (List.mem_filter.mpr ⟨hfirst, ?_⟩), hkey⟩
  rw [hkey]
  simpa using hne

/-- Of the access points of a network the first one is shown, the strongest. -/
theorem wifiMgrScan_strongest (hsorted : found.Pairwise fun a b => b.rssi ≤ a.rssi) {e : ScanEntry}
    (he : e ∈ wifiMgrScan true found) {r : WifiApRecord} (hr : r ∈ found.take scanMax)
    (hname : r.ssid = e.ssid) : r.rssi ≤ e.rssi := by
  obtain ⟨first, hfirst, -, rfl⟩ := mem_wifiMgrScan he
  rcases firstsAfter_first (hsorted.sublist (List.take_sublist _ _)) hfirst hr hname with rfl | hle
  · exact Int8.le_refl _
  · exact hle

end List

end SeeedMote.Gateway
