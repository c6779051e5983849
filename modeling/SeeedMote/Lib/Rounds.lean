import Mathlib.Algebra.Order.Group.Defs
import Mathlib.Data.List.Basic
import Mathlib.Data.Nat.ModEq
import Mathlib.Tactic.Linarith

/-! Things played in rounds, newest first. A round takes at least `period`, and no key is played more
    than `most` times in one. A key's plays are numbered from 1 on, and the number is kept modulo `wrap`:
    when `wrap` is two rounds' worth, plays of a key with the same number are a period apart. -/

namespace SeeedMote.Lib

variable {E K T : Type*} [DecidableEq K] (key : E → K) (time : E → T)

/-- How often `k` is among the plays. -/
def timesPlayed (plays : List E) (k : K) : ℕ := plays.countP fun e => key e = k

theorem timesPlayed_nil (k : K) : timesPlayed key [] k = 0 := rfl

theorem timesPlayed_cons (e : E) (plays : List E) (k : K) :
    timesPlayed key (e :: plays) k = timesPlayed key plays k + if key e = k then 1 else 0 := by
  simp [timesPlayed, List.countP_cons]

theorem timesPlayed_append (newer older : List E) (k : K) :
    timesPlayed key (newer ++ older) k = timesPlayed key newer k + timesPlayed key older k :=
  List.countP_append

section Time
variable [AddCommGroup T] [LinearOrder T] [IsOrderedAddMonoid T]

/-- `inRound k` plays of `k` are of this round, which began at `roundStart`, and at most `most` of the
    round before: what is older than this round's plays came before it began, and what is older than
    both rounds' came a period before. -/
def Rounds (period : T) (most : ℕ) (plays : List E) (roundStart : T) (inRound : K → ℕ) : Prop :=
  ∀ newer e older, plays = newer ++ e :: older →
    (inRound (key e) ≤ timesPlayed key newer (key e) → time e ≤ roundStart) ∧
      (inRound (key e) + most ≤ timesPlayed key newer (key e) → time e + period ≤ roundStart)

variable {key time} {period roundStart : T} {most : ℕ} {plays : List E} {inRound : K → ℕ}

omit [IsOrderedAddMonoid T] in
theorem Rounds.nil : Rounds key time period most [] roundStart inRound := by
  intro newer e older h
  simp at h

omit [IsOrderedAddMonoid T] in
/-- One more play in this round. -/
theorem Rounds.play (h : Rounds key time period most plays roundStart inRound) (e : E)
    {inRound' : K → ℕ} (hin : ∀ k, inRound' k = inRound k + if key e = k then 1 else 0) :
    Rounds key time period most (e :: plays) roundStart inRound' := by
  intro newer e' older hsplit
  cases newer with
  | nil =>
    obtain ⟨rfl, -⟩ := List.cons.inj hsplit
    rw [hin, if_pos rfl, timesPlayed_nil]
    exact ⟨fun hle => by omega, fun hle => by omega⟩
  | cons a newer =>
    obtain ⟨rfl, hrest⟩ := List.cons.inj hsplit
    have hold := h newer e' older hrest
    rw [hin, timesPlayed_cons]
    exact ⟨fun hle => hold.1 (by omega), fun hle => hold.2 (by omega)⟩

/-- The next round, a period later at least. -/
theorem Rounds.next (h : Rounds key time period most plays roundStart inRound)
    (hmost : ∀ k, inRound k ≤ most) {roundStart' : T} (hperiod : roundStart + period ≤ roundStart')
    (hpast : ∀ e ∈ plays, time e ≤ roundStart') :
    Rounds key time period most plays roundStart' fun _ => 0 := by
  intro newer e older hsplit
  have hmem : e ∈ plays := by
    rw [hsplit]
    exact List.mem_append_right _ (List.mem_cons_self ..)
  refine ⟨fun _ => hpast _ hmem, fun hle => ?_⟩
  have hold := (h newer e older hsplit).1 ((hmost (key e)).trans (by omega))
  exact (add_le_add_left hold period).trans hperiod

end Time

/-! ### Numbers -/

variable (number : E → ℕ)

/-- The plays of a key carry its count, modulo `wrap`. -/
def Numbered (wrap : ℕ) (plays : List E) : Prop :=
  ∀ newer e older, plays = newer ++ e :: older →
    number e = (timesPlayed key older (key e) + 1) % wrap

variable {key number} {wrap : ℕ} {plays : List E}

theorem Numbered.nil : Numbered key number wrap ([] : List E) := by
  intro newer e older h
  simp at h

theorem Numbered.play (h : Numbered key number wrap plays) {e : E}
    (he : number e = (timesPlayed key plays (key e) + 1) % wrap) :
    Numbered key number wrap (e :: plays) := by
  intro newer e' older hsplit
  cases newer with
  | nil =>
    obtain ⟨rfl, rfl⟩ := List.cons.inj hsplit
    exact he
  | cons a newer =>
    obtain ⟨rfl, hrest⟩ := List.cons.inj hsplit
    exact h newer e' older hrest

/-- A play that carries the number of the next play of its key is a period older than the round. -/
theorem Numbered.apart [AddCommGroup T] [LinearOrder T] {time : E → T} {period roundStart : T} {most : ℕ}
    {inRound : K → ℕ} (h : Numbered key number wrap plays)
    (hrounds : Rounds key time period most plays roundStart inRound) {e : E} (he : e ∈ plays)
    (hsame : number e = (timesPlayed key plays (key e) + 1) % wrap)
    (hwrap : inRound (key e) + most < wrap) : time e + period ≤ roundStart := by
  obtain ⟨newer, older, hsplit⟩ := List.append_of_mem he
  have hnum := h newer e older hsplit
  have hcount : timesPlayed key plays (key e)
      = timesPlayed key newer (key e) + (timesPlayed key older (key e) + 1) := by
    rw [hsplit, timesPlayed_append, timesPlayed_cons, if_pos rfl]
  -- As many plays came after it as make the number come round again.
  have hround : (timesPlayed key newer (key e) + 1) % wrap = 0 := by
    have hmod : 0 + (timesPlayed key older (key e) + 1) ≡
        timesPlayed key newer (key e) + 1 + (timesPlayed key older (key e) + 1) [MOD wrap] := by
      rw [Nat.zero_add, Nat.ModEq, ← hnum, hsame, hcount]
      exact congrArg (· % wrap) (by omega)
    exact (Nat.ModEq.add_right_cancel' _ hmod).symm
  refine (hrounds newer e older hsplit).2 ?_
  have hle : wrap ≤ timesPlayed key newer (key e) + 1 :=
    Nat.le_of_dvd (Nat.succ_pos _) (Nat.dvd_of_mod_eq_zero hround)
  omega

end SeeedMote.Lib
