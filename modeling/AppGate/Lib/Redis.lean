import Mathlib.Algebra.Group.Int.Defs
import Mathlib.Algebra.Group.Nat.Defs
import Mathlib.Data.Int.Notation
import Mathlib.Data.List.Nodup
import Mathlib.Logic.Function.Basic
import Mathlib.Tactic.Common

/-!
# Redis keys with expiry

The commands act on one key, as the server sees it at a time in milliseconds. A key whose expiry
time has passed does not exist any more. A sorted set is kept as a list of members with scores; the
commands here do not depend on its order. The scores are the values of binary64 integers.

* `Slot`, `live`: a key and what a command sees of it;
* `zremrangebyscore`, `zcard`, `zadd`, `expire`, `incr`;
* `elems`, `expiry` and what each command does to them;
* `Db`: a database is a function from keys.
-/

set_option autoImplicit false

namespace Redis

/-- An existing key: its value and the time up to which it exists. -/
structure Slot (β : Type) where
  value : β
  expireAt : Option ℕ := none
  deriving DecidableEq, Repr

/-- A database. -/
abbrev Db (κ β : Type) := κ → Option (Slot β)

/-- A sorted set. -/
abbrev ZSet (α : Type) := List (α × ℤ)

variable {α β : Type}

/-- The key as a command at time `clock` sees it. -/
def live (clock : ℕ) (k : Option (Slot β)) : Option (Slot β) :=
  k.filter fun s => s.expireAt.all (clock ≤ ·)

/-- `EXPIRE key secs`. The time must fit in 64 bits; a time that is not in the future deletes the
key. -/
def expire (clock : ℕ) (secs : ℤ) (k : Option (Slot β)) : Except String (Option (Slot β)) :=
  if secs * 1000 < -2 ^ 63 ∨ 2 ^ 63 ≤ secs * 1000 ∨ 2 ^ 63 ≤ secs * 1000 + clock then
    .error "ERR invalid expire time in 'expire' command"
  else if secs ≤ 0 then .ok none
  else .ok ((live clock k).map fun s => { s with expireAt := some (clock + secs.toNat * 1000) })

/-- `INCR key`: the new count and the key. -/
def incr (clock : ℕ) (k : Option (Slot ℤ)) : Except String (ℤ × Option (Slot ℤ)) :=
  match live clock k with
  | none => .ok (1, some ⟨1, none⟩)
  | some s =>
    if s.value + 1 < 2 ^ 63 then .ok (s.value + 1, some { s with value := s.value + 1 })
    else .error "ERR increment or decrement would overflow"

/-- The elements of a sorted set; a key that does not exist is empty. -/
def elems (clock : ℕ) (k : Option (Slot (ZSet α))) : ZSet α :=
  match live clock k with
  | none => []
  | some s => s.value

/-- `ZCARD key`. -/
def zcard (clock : ℕ) (k : Option (Slot (ZSet α))) : ℕ := (elems clock k).length

/-- `ZREMRANGEBYSCORE key min max`. A set that becomes empty is deleted with its expiry. -/
def zremrangebyscore (clock : ℕ) (min max : ℤ) (k : Option (Slot (ZSet α))) :
    Option (Slot (ZSet α)) :=
  match live clock k with
  | none => none
  | some s =>
    match s.value.filter fun p => ¬ (min ≤ p.2 ∧ p.2 ≤ max) with
    | [] => none
    | rest => some { s with value := rest }

/-- `ZADD key score member`. A member that is there gets the new score. -/
def zadd [DecidableEq α] (clock : ℕ) (score : ℤ) (member : α) (k : Option (Slot (ZSet α))) :
    Option (Slot (ZSet α)) :=
  match live clock k with
  | none => some ⟨[(member, score)], none⟩
  | some s => some { s with value := s.value.filter (·.1 ≠ member) ++ [(member, score)] }

/-- The expiry time of a key that exists. -/
def expiry (clock : ℕ) (k : Option (Slot β)) : Option ℕ := (live clock k).bind Slot.expireAt

/-! ## Time -/

/-- Time can only take a key away. -/
theorem live_later {clock clock' : ℕ} (h : clock ≤ clock') (k : Option (Slot β)) :
    live clock' k = live clock k ∨
      live clock' k = none ∧ ∃ s e, live clock k = some s ∧ s.expireAt = some e ∧ e < clock' := by
  cases k with
  | none => exact .inl rfl
  | some s =>
      cases he : s.expireAt with
      | none => exact .inl (by simp [live, Option.filter, he])
      | some e =>
          by_cases hc' : clock' ≤ e
          · exact .inl (by simp [live, Option.filter, he, hc', Nat.le_trans h hc'])
          · by_cases hc : clock ≤ e
            · refine .inr ⟨by simp [live, Option.filter, he, hc'], s, e, ?_, he, by omega⟩
              simp [live, Option.filter, he, hc]
            · exact .inl (by simp [live, Option.filter, he, hc, hc'])

/-! ## Sorted sets -/

/-- The elements a key holds, whether or not it has expired. -/
def stored : Option (Slot (ZSet α)) → ZSet α
  | none => []
  | some s => s.value

theorem elems_eq_stored_live (clock : ℕ) (k : Option (Slot (ZSet α))) :
    elems clock k = stored (live clock k) := by
  unfold elems stored
  cases live clock k <;> rfl

theorem elems_sublist_stored (clock : ℕ) (k : Option (Slot (ZSet α))) :
    (elems clock k).Sublist (stored k) := by
  rw [elems_eq_stored_live]
  cases k with
  | none => exact List.Sublist.refl _
  | some s =>
      by_cases h : s.expireAt.all (clock ≤ ·)
      · simp [live, Option.filter, h]
      · simp [live, Option.filter, h, stored]

theorem live_some {clock : ℕ} {k : Option (Slot β)} {s : Slot β} (h : live clock k = some s) :
    s.expireAt.all (clock ≤ ·) = true :=
  (Option.filter_eq_some_iff.mp h).2

theorem live_zremrangebyscore (clock : ℕ) (min max : ℤ) (k : Option (Slot (ZSet α))) :
    live clock (zremrangebyscore clock min max k) = zremrangebyscore clock min max k := by
  unfold zremrangebyscore
  split
  · rfl
  · rename_i s hs
    have hlive := live_some hs
    split
    · rfl
    · exact Option.filter_eq_some_iff.mpr ⟨rfl, hlive⟩

theorem live_zadd [DecidableEq α] (clock : ℕ) (score : ℤ) (member : α)
    (k : Option (Slot (ZSet α))) :
    live clock (zadd clock score member k) = zadd clock score member k := by
  unfold zadd
  split
  · rfl
  · rename_i s hs
    have hlive := live_some hs
    exact Option.filter_eq_some_iff.mpr ⟨rfl, hlive⟩

theorem stored_zremrangebyscore (clock : ℕ) (min max : ℤ) (k : Option (Slot (ZSet α))) :
    stored (zremrangebyscore clock min max k) =
      (elems clock k).filter fun p => ¬ (min ≤ p.2 ∧ p.2 ≤ max) := by
  unfold zremrangebyscore elems
  cases live clock k with
  | none => rfl
  | some s =>
      dsimp only
      split
      · rename_i h
        rw [h]
        rfl
      · rfl

theorem stored_zadd [DecidableEq α] (clock : ℕ) (score : ℤ) (member : α)
    (k : Option (Slot (ZSet α))) :
    stored (zadd clock score member k) =
      (elems clock k).filter (·.1 ≠ member) ++ [(member, score)] := by
  unfold zadd elems
  cases live clock k <;> rfl

theorem elems_zremrangebyscore (clock : ℕ) (min max : ℤ) (k : Option (Slot (ZSet α))) :
    elems clock (zremrangebyscore clock min max k) =
      (elems clock k).filter fun p => ¬ (min ≤ p.2 ∧ p.2 ≤ max) := by
  rw [elems_eq_stored_live, live_zremrangebyscore, stored_zremrangebyscore]

/-- A lower bound removes less. -/
theorem zcard_zremrangebyscore_anti (clock : ℕ) (min : ℤ) {max max' : ℤ} (h : max ≤ max')
    (k : Option (Slot (ZSet α))) :
    zcard clock (zremrangebyscore clock min max' k) ≤
      zcard clock (zremrangebyscore clock min max k) := by
  rw [zcard, zcard, elems_zremrangebyscore, elems_zremrangebyscore, ← List.countP_eq_length_filter,
    ← List.countP_eq_length_filter]
  refine List.countP_mono_left fun p _ hp => ?_
  rw [decide_eq_true_eq] at hp ⊢
  exact fun hle => hp ⟨hle.1, Int.le_trans hle.2 h⟩

theorem elems_zadd [DecidableEq α] (clock : ℕ) (score : ℤ) (member : α)
    (k : Option (Slot (ZSet α))) :
    elems clock (zadd clock score member k) =
      (elems clock k).filter (·.1 ≠ member) ++ [(member, score)] := by
  rw [elems_eq_stored_live, live_zadd, stored_zadd]

theorem expire_eq_ok {clock : ℕ} {secs : ℤ} (hs : 0 < secs) (h : secs * 1000 + clock < 2 ^ 63)
    (k : Option (Slot β)) :
    expire clock secs k =
      .ok ((live clock k).map fun s =>
        { s with expireAt := some (clock + secs.toNat * 1000) }) := by
  unfold expire
  rw [if_neg (by omega), if_neg (by omega)]

/-- The times `EXPIRE` takes. -/
theorem exists_expire_eq_ok {clock : ℕ} {secs : ℤ} {k : Option (Slot β)} :
    (∃ k', expire clock secs k = .ok k') ↔
      -2 ^ 63 ≤ secs * 1000 ∧ secs * 1000 + clock < 2 ^ 63 := by
  unfold expire
  split_ifs with h hs
  · exact iff_of_false nofun (by omega)
  · exact iff_of_true ⟨_, rfl⟩ (by omega)
  · exact iff_of_true ⟨_, rfl⟩ (by omega)

/-- What a successful `EXPIRE` leaves. -/
theorem expire_ok {clock : ℕ} {secs : ℤ} {k k' : Option (Slot β)}
    (h : expire clock secs k = .ok k') :
    (secs ≤ 0 ∧ k' = none) ∨
      (0 < secs ∧ k' = (live clock k).map fun s =>
        { s with expireAt := some (clock + secs.toNat * 1000) }) := by
  unfold expire at h
  split_ifs at h with _ hs
  · exact .inl ⟨hs, (Except.ok.inj h).symm⟩
  · exact .inr ⟨Int.lt_of_not_ge hs, (Except.ok.inj h).symm⟩

theorem stored_expire {clock : ℕ} {secs : ℤ} {k k' : Option (Slot (ZSet α))}
    (h : expire clock secs k = .ok k') (hs : 0 < secs) : stored k' = elems clock k := by
  rcases expire_ok h with ⟨hs', -⟩ | ⟨-, rfl⟩
  · omega
  · rw [elems_eq_stored_live]
    cases live clock k <;> rfl

/-! ## Expiry -/

/-- A set that can still be seen later is the same; otherwise its expiry has passed. -/
theorem elems_later {clock clock' : ℕ} (h : clock ≤ clock') (k : Option (Slot (ZSet α))) :
    (elems clock' k = elems clock k ∧ expiry clock' k = expiry clock k) ∨
      (elems clock' k = [] ∧ ∃ e, expiry clock k = some e ∧ e < clock') := by
  rcases live_later h k with hl | ⟨hl, s, e, hs, he, hlt⟩
  · exact .inl ⟨by rw [elems, hl, elems], by rw [expiry, hl, expiry]⟩
  · exact .inr ⟨by rw [elems, hl], e, by rw [expiry, hs]; exact he, hlt⟩

theorem expiry_zremrangebyscore {clock : ℕ} {min max : ℤ} {k : Option (Slot (ZSet α))}
    (h : elems clock (zremrangebyscore clock min max k) ≠ []) :
    expiry clock (zremrangebyscore clock min max k) = expiry clock k := by
  rw [elems_eq_stored_live, live_zremrangebyscore] at h
  unfold expiry
  rw [live_zremrangebyscore]
  unfold zremrangebyscore at h ⊢
  cases hk : live clock k with
  | none => rfl
  | some s =>
      rw [hk] at h
      dsimp only at h ⊢
      split at h
      · exact absurd rfl h
      · rfl

theorem expiry_zadd [DecidableEq α] {clock : ℕ} {score : ℤ} {member : α}
    {k : Option (Slot (ZSet α))} (h : elems clock k ≠ []) :
    expiry clock (zadd clock score member k) = expiry clock k := by
  unfold expiry
  rw [live_zadd]
  unfold zadd
  unfold elems at h
  cases hk : live clock k with
  | none =>
      rw [hk] at h
      exact absurd rfl h
  | some s => rfl

theorem live_expire {clock : ℕ} {secs : ℤ} {k k' : Option (Slot β)}
    (h : expire clock secs k = .ok k') (hs : 0 < secs) :
    live clock k' = (live clock k).map fun s =>
      { s with expireAt := some (clock + secs.toNat * 1000) } := by
  rcases expire_ok h with ⟨hs', -⟩ | ⟨-, rfl⟩
  · omega
  · cases live clock k with
    | none => rfl
    | some s => exact Option.filter_eq_some_iff.mpr ⟨rfl, by simp⟩

theorem elems_expire {clock : ℕ} {secs : ℤ} {k k' : Option (Slot (ZSet α))}
    (h : expire clock secs k = .ok k') (hs : 0 < secs) : elems clock k' = elems clock k := by
  unfold elems
  rw [live_expire h hs]
  cases live clock k <;> rfl

theorem expiry_expire {clock : ℕ} {secs : ℤ} {k k' : Option (Slot (ZSet α))}
    (h : expire clock secs k = .ok k') (hs : 0 < secs) (hne : elems clock k ≠ []) :
    expiry clock k' = some (clock + secs.toNat * 1000) := by
  unfold expiry
  rw [live_expire h hs]
  unfold elems at hne
  cases hk : live clock k with
  | none =>
      rw [hk] at hne
      exact absurd rfl hne
  | some s => rfl

/-! ## Scores -/

/-- The key with the names of the members left out. -/
def scores (k : Option (Slot (ZSet α))) : Option (Slot (List ℤ)) :=
  k.map fun s => ⟨s.value.map Prod.snd, s.expireAt⟩

theorem scores_live (clock : ℕ) (k : Option (Slot (ZSet α))) :
    scores (live clock k) = live clock (scores k) := by
  cases k with
  | none => rfl
  | some s =>
      by_cases h : s.expireAt.all (clock ≤ ·)
      · simp [live, scores, Option.filter, h]
      · simp [live, scores, Option.filter, h]

theorem zcard_eq (clock : ℕ) (k : Option (Slot (ZSet α))) :
    zcard clock k = (live clock (scores k)).elim 0 fun s => s.value.length := by
  rw [← scores_live]
  unfold zcard elems
  cases live clock k with
  | none => rfl
  | some s => simp [scores]

theorem scores_zremrangebyscore (clock : ℕ) (min max : ℤ) (k : Option (Slot (ZSet α))) :
    scores (zremrangebyscore clock min max k) =
      (live clock (scores k)).bind fun s =>
        match s.value.filter fun x => ¬ (min ≤ x ∧ x ≤ max) with
        | [] => none
        | rest => some { s with value := rest } := by
  rw [← scores_live]
  unfold zremrangebyscore
  cases live clock k with
  | none => rfl
  | some s =>
      simp only [scores, Option.map_some, Option.bind_some, List.filter_map]
      cases hf : s.value.filter fun p => ¬ (min ≤ p.2 ∧ p.2 ≤ max) with
      | nil => simp only [Function.comp_def, hf, List.map_nil, Option.map_none]
      | cons p rest => simp only [Function.comp_def, hf, List.map_cons, Option.map_some]

/-- A new member adds its score at the end. -/
theorem scores_zadd [DecidableEq α] {clock : ℕ} {score : ℤ} {member : α}
    {k : Option (Slot (ZSet α))} (h : ∀ p ∈ stored k, p.1 ≠ member) :
    scores (zadd clock score member k) = some (match live clock (scores k) with
      | none => ⟨[score], none⟩
      | some s => { s with value := s.value ++ [score] }) := by
  have hel : ∀ p ∈ elems clock k, p.1 ≠ member := fun p hp =>
    h p ((elems_sublist_stored clock k).subset hp)
  rw [← scores_live]
  unfold zadd
  unfold elems at hel
  cases hk : live clock k with
  | none => rfl
  | some s =>
      rw [hk] at hel
      have hfilter : s.value.filter (·.1 ≠ member) = s.value := by
        rw [List.filter_eq_self]
        intro p hp
        simpa using hel p hp
      simp only [hfilter, scores, Option.map_some, List.map_append, List.map_cons, List.map_nil]

theorem scores_expire (clock : ℕ) (secs : ℤ) (k : Option (Slot (ZSet α))) :
    (expire clock secs k).map scores = expire clock secs (scores k) := by
  unfold expire
  split_ifs
  · rfl
  · rfl
  · rw [← scores_live]
    cases live clock k <;> rfl

end Redis
