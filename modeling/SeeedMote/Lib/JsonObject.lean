import SeeedMote.Lib.JsonText

/-! Reading a JSON object back, whoever printed it. A printer quotes its keys and prints its values; when
    the scanner undoes the one and the other, `json.loads` undoes the object they make. -/

namespace SeeedMote.Lib

/-! ### Strings -/

/-- What `esc` makes of the character `c` is `c` itself, as a character of its own, or a backslash and
    what `escape` undoes. -/
def Unescapes (esc : ℕ → PyStr) (c : ℕ) : Prop :=
  (esc c = [c] ∧ c ≠ 34 ∧ c ≠ 92 ∧ 32 ≤ c) ∨ ∃ t, esc c = 92 :: t ∧ ∀ r, escape (t ++ r) = some (c, r)

/-- The string with its quotes. -/
def quoteWith (esc : ℕ → PyStr) (s : PyStr) : PyStr := 34 :: s.flatMap esc ++ [34]

/-- The scanner reads an escaped string back, up to the quote behind it. -/
theorem scanString_flatMap {esc : ℕ → PyStr} : ∀ {s : PyStr}, (∀ c ∈ s, Unescapes esc c) → ∀ r,
    scanString (s.flatMap esc ++ 34 :: r) = some (s, r)
  | [], _, r => by
      unfold scanString
      rfl
  | c :: s, h, r => by
      have ih := scanString_flatMap (fun d hd => h d (List.mem_cons_of_mem _ hd)) r
      rw [List.flatMap_cons, List.append_assoc]
      rcases h c (List.mem_cons_self ..) with ⟨heq, hq, hb, hlo⟩ | ⟨t, heq, hescape⟩
      · rw [heq, List.singleton_append, scanString]
        simp only [if_neg hq, if_neg hb, if_neg (Nat.not_lt.mpr hlo), ih, Option.map_some]
      · rw [heq, List.cons_append, scanString]
        simp only [if_neg (by decide : ¬92 = 34), if_true]
        split
        · next hnone => rw [hescape] at hnone; exact absurd hnone (by simp)
        · next u r' hsome =>
          obtain ⟨rfl, rfl⟩ := Prod.mk.inj (Option.some.inj ((hescape _).symm.trans hsome))
          rw [ih, Option.map_some]

/-- What holds of the quote and of every escape holds of every character. -/
theorem forall_quoteWith {P : ℕ → Prop} (hquote : P 34) {esc : ℕ → PyStr} {s : PyStr}
    (h : ∀ c ∈ s, ∀ d ∈ esc c, P d) : ∀ d ∈ quoteWith esc s, P d := by
  intro d hd
  simp only [quoteWith, List.cons_append, List.mem_cons, List.mem_append, List.mem_flatMap,
    List.not_mem_nil, or_false] at hd
  rcases hd with rfl | ⟨c, hc, hd⟩ | rfl
  · exact hquote
  · exact h c hc d hd
  · exact hquote

/-! ### Members -/

/-- A text that is a quoted key. -/
def ReadsKey (text key : PyStr) : Prop :=
  ∃ t, text = 34 :: t ∧ ∀ r, scanString (t ++ r) = some (key, r)

/-- A text that is a value, whatever follows that is no part of a number. -/
def ReadsValue (rt : PyRuntime) (text : PyStr) (v : PyVal) : Prop :=
  ∀ nested r, EndsNumber r →
    skipWs (text ++ r) = text ++ r ∧ scanWith rt nested (text ++ r) = .ok (v, r)

theorem readsKey_quoteWith {esc : ℕ → PyStr} {s : PyStr} (h : ∀ c ∈ s, Unescapes esc c) :
    ReadsKey (quoteWith esc s) s := by
  refine ⟨s.flatMap esc ++ [34], rfl, fun r => ?_⟩
  rw [List.append_assoc]
  exact scanString_flatMap h r

theorem ReadsKey.readsValue {text s : PyStr} (h : ReadsKey text s) (rt : PyRuntime) :
    ReadsValue rt text (.str s) := by
  obtain ⟨t, rfl, hscan⟩ := h
  intro nested r _
  refine ⟨skipWs_of_head (by decide) _, ?_⟩
  rw [List.cons_append, scanWith, hscan]

/-- `key:value`, of a key's text and a value's. -/
def memberText (m : PyStr × PyStr) : PyStr := m.1 ++ 58 :: m.2

/-- The members with commas between them. -/
def membersText : List (PyStr × PyStr) → PyStr
  | [] => []
  | [m] => memberText m
  | m :: ms => memberText m ++ 44 :: membersText ms

def objectText (ms : List (PyStr × PyStr)) : PyStr := 123 :: membersText ms ++ [125]

/-- The text `m` is the member `e`. -/
def ReadsMember (rt : PyRuntime) (m : PyStr × PyStr) (e : PyStr × PyVal) : Prop :=
  ReadsKey m.1 e.1 ∧ ReadsValue rt m.2 e.2

/-- The members as a dict, later keys over earlier ones. -/
def entriesOf (entries es : List (PyStr × PyVal)) : List (PyStr × PyVal) :=
  es.foldl (fun acc e => Dict.assign e.1 e.2 acc) entries

section Loop
variable {rt : PyRuntime} (nested : Option (PyStr → Scan))

/-- The object loop reads one member and stops at the character behind it. -/
theorem objectLoop_memberText {m : PyStr × PyStr} {e : PyStr × PyVal} (h : ReadsMember rt m e) {c : ℕ}
    (hc : c = 44 ∨ c = 125) (fuel : ℕ) (entries : List (PyStr × PyVal)) (r : PyStr) :
    objectLoop (scanWith rt nested) (fuel + 1) entries (memberText m ++ c :: r)
      = if c = 125 then .ok (.dict (entriesOf entries [e]), r)
        else objectLoop (scanWith rt nested) fuel (entriesOf entries [e]) (skipWs r) := by
  obtain ⟨⟨t, hkey, hscan⟩, hvalue⟩ := h
  obtain ⟨hskip, hval⟩ := hvalue nested (c :: r) (endsNumber_of hc r)
  have htext : memberText m ++ c :: r = 34 :: (t ++ 58 :: (m.2 ++ c :: r)) := by
    simp [memberText, hkey]
  have hcolon : ∀ s, skipWs (58 :: s) = 58 :: s := skipWs_of_head (by decide)
  have hend : skipWs (c :: r) = c :: r := skipWs_of_head (by omega) r
  rw [htext, objectLoop, hscan]
  simp only [hcolon, hskip, hval]
  simp only [bind, Except.bind, hend]
  rcases hc with rfl | rfl
  · rfl
  · rfl

theorem membersText_head {ms : List (PyStr × PyStr)} {es : List (PyStr × PyVal)}
    (h : List.Forall₂ (ReadsMember rt) ms es) (hne : ms ≠ []) (r : PyStr) :
    ∃ t, membersText ms ++ r = 34 :: t := by
  cases h with
  | nil => exact absurd rfl hne
  | @cons m e ms es hm h =>
    obtain ⟨⟨t, hkey, -⟩, -⟩ := hm
    cases h with
    | nil => exact ⟨t ++ 58 :: m.2 ++ r, by simp [membersText, memberText, hkey]⟩
    | @cons m' e' ms es _ _ =>
      exact ⟨t ++ 58 :: m.2 ++ 44 :: membersText (m' :: ms) ++ r, by
        simp [membersText, memberText, hkey]⟩

theorem objectLoop_membersText : ∀ {ms : List (PyStr × PyStr)} {es : List (PyStr × PyVal)}
    (fuel : ℕ) (entries : List (PyStr × PyVal)), List.Forall₂ (ReadsMember rt) ms es → ms ≠ [] →
      ms.length ≤ fuel →
      objectLoop (scanWith rt nested) fuel entries (membersText ms ++ [125])
        = .ok (.dict (entriesOf entries es), [])
  | [], _, _, _, _, hne, _ => absurd rfl hne
  | [m], [e], fuel + 1, entries, .cons hm _, _, _ =>
      objectLoop_memberText nested hm (.inr rfl) fuel entries []
  | m :: m' :: ms, e :: es, fuel + 1, entries, .cons hm h, _, hlen => by
      have htext : membersText (m :: m' :: ms) ++ [125]
          = memberText m ++ 44 :: (membersText (m' :: ms) ++ [125]) := by
        simp [membersText]
      have hskip : skipWs (membersText (m' :: ms) ++ [125]) = membersText (m' :: ms) ++ [125] := by
        obtain ⟨t, ht⟩ := membersText_head h (by simp) [125]
        rw [ht]
        exact skipWs_of_head (by decide) _
      have ih := objectLoop_membersText fuel (entriesOf entries [e]) h (by simp)
        (Nat.le_of_succ_le_succ hlen)
      rw [htext, objectLoop_memberText nested hm (.inl rfl), if_neg (by decide), hskip, ih]
      rfl

end Loop

theorem length_le_membersText : ∀ ms : List (PyStr × PyStr), ms.length ≤ (membersText ms).length
  | [] => Nat.le_refl _
  | [m] => by
      simp only [membersText, memberText, List.length_append, List.length_cons, List.length_nil]
      omega
  | m :: m' :: ms => by
      have ih := length_le_membersText (m' :: ms)
      simp only [membersText, List.length_append, List.length_cons] at ih ⊢
      omega

/-- What holds of the separators and of every key and value holds of every character. -/
theorem forall_membersText {P : ℕ → Prop} (hcomma : P 44) (hcolon : P 58) :
    ∀ {ms : List (PyStr × PyStr)}, (∀ m ∈ ms, (∀ c ∈ m.1, P c) ∧ ∀ c ∈ m.2, P c) →
      ∀ c ∈ membersText ms, P c := by
  have hone : ∀ m : PyStr × PyStr, ((∀ c ∈ m.1, P c) ∧ ∀ c ∈ m.2, P c) → ∀ c ∈ memberText m, P c := by
    intro m hm c hc
    rcases List.mem_append.mp hc with hkey | hc
    · exact hm.1 c hkey
    · rcases List.mem_cons.mp hc with rfl | hvalue
      · exact hcolon
      · exact hm.2 c hvalue
  intro ms h
  induction ms with
  | nil => exact nofun
  | cons m ms ih =>
    have hm := hone m (h m (List.mem_cons_self ..))
    have ih := ih fun m' hm' => h m' (List.mem_cons_of_mem _ hm')
    cases ms with
    | nil => exact hm
    | cons m' ms =>
      intro c hc
      rcases List.mem_append.mp hc with hc | hc
      · exact hm c hc
      · rcases List.mem_cons.mp hc with rfl | hc
        · exact hcomma
        · exact ih c hc

/-! ### Objects -/

theorem forall_objectText {P : ℕ → Prop} (hopen : P 123) (hclose : P 125) {ms : List (PyStr × PyStr)}
    (h : ∀ c ∈ membersText ms, P c) : ∀ c ∈ objectText ms, P c := by
  intro c hc
  simp only [objectText, List.cons_append, List.mem_cons, List.mem_append, List.not_mem_nil,
    or_false] at hc
  rcases hc with rfl | hc | rfl
  · exact hopen
  · exact h c hc
  · exact hclose

/-- `json.loads` reads the object back from its bytes, when they decode to its text. -/
theorem loads_objectText {rt : PyRuntime} (hdepth : 0 < rt.jsonDepth) {ms : List (PyStr × PyStr)}
    {es : List (PyStr × PyVal)} (h : List.Forall₂ (ReadsMember rt) ms es) (hne : ms ≠ [])
    {b : CStr} (hb : utf8Decode (123 :: 34 :: b) = some (objectText ms)) :
    loads rt (123 :: 34 :: b) = .ok (.dict (entriesOf [] es)) := by
  obtain ⟨depth, hd⟩ := Nat.exists_eq_succ_of_ne_zero hdepth.ne'
  obtain ⟨nested, hnested⟩ := scanOnce_eq_scanWith rt depth
  obtain ⟨t, ht⟩ := membersText_head h hne [125]
  have hopen : ∀ r, skipWs (123 :: r) = 123 :: r := skipWs_of_head (by decide)
  have hquote : skipWs (34 :: t) = 34 :: t := skipWs_of_head (by decide) t
  have hlen : ms.length ≤ (34 :: t).length + 1 := by
    have hle := length_le_membersText ms
    rw [← ht, List.length_append]
    omega
  have hloop := objectLoop_membersText nested ((34 :: t).length + 1) [] h hne hlen
  have hscan : scanOnce rt rt.jsonDepth (skipWs (objectText ms)) = .ok (.dict (entriesOf [] es), []) := by
    rw [objectText, List.cons_append, hopen, hd, scanOnce, scanWith, ht]
    simp only [hquote, hnested]
    rw [← ht]
    rw [← ht] at hloop
    exact hloop
  rw [loads, detectEncoding_object, decodeBytes, hb]
  simp only [hscan]
  rfl

end SeeedMote.Lib
