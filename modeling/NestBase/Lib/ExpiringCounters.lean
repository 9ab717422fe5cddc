import Mathlib.Data.Finset.Prod
import Mathlib.Data.Finset.Max
import Mathlib.Order.Interval.Finset.Nat
import Mathlib.Logic.Function.Basic
import Mathlib.Tactic

/-!
# Counters that expire

A key-value server counts under keys: `incr` adds one to the counter of a key
and creates it without an expiry, `pexpire` lets the counter expire some time
from now, and a counter whose time has come is dropped at some later moment.
The life of a key lasts from the increment that creates it to its end.

Two results bound the increments of a key in a window of the length of the
expiry, counting those with a reply of at most `limit`.

* `Lives.window_length_le`: whoever sends the commands and whenever, a window
  touches at most two lives, and not the first increment of the earlier one, so
  it holds at most `2 * limit - 1` of them.
* `Covered.window_length_le`: of increments whose expiry was renewed while the
  life they belong to lasted, a window holds at most `limit`.
-/

namespace NestBase
namespace Lib
namespace ExpiringCounters

variable {κ : Type} [DecidableEq κ]

structure Counter where
  count : Nat
  expiresAt : Option Int
  /-- When the key was created. No command reads it. -/
  born : Int
  deriving DecidableEq

abbrev Keyspace (κ : Type) : Type := κ → Option Counter

/-- An increment and the life of the key that it counted in. -/
structure Increment (κ : Type) where
  key : κ
  time : Int
  born : Int
  /-- The reply. -/
  count : Nat
  deriving DecidableEq

def counterAfter (now : Int) : Option Counter → Counter
  | none => { count := 1, expiresAt := none, born := now }
  | some counter => { counter with count := counter.count + 1 }

def incrementOf (now : Int) (key : κ) (keys : Keyspace κ) : Increment κ :=
  let counter := counterAfter now (keys key)
  { key := key, time := now, born := counter.born, count := counter.count }

def incr (now : Int) (key : κ) (keys : Keyspace κ) : Keyspace κ :=
  Function.update keys key (some (counterAfter now (keys key)))

/-- A counter that is to expire at once is removed. -/
def pexpire (now ms : Int) (key : κ) (keys : Keyspace κ) : Keyspace κ :=
  match keys key with
  | none => keys
  | some counter =>
      if ms ≤ 0 then Function.update keys key none
      else Function.update keys key (some { counter with expiresAt := some (now + ms) })

def isDue (now : Int) (counter : Counter) : Bool :=
  counter.expiresAt.any fun expiresAt => decide (expiresAt ≤ now)

/-- The end of a life, at its time or later. -/
def expire (now : Int) (key : κ) (keys : Keyspace κ) : Option (Keyspace κ) :=
  if (keys key).any (isDue now) then some (Function.update keys key none) else none

/-! ## What one command does -/

variable {other key : κ}
variable {counter : Counter}

theorem update_cases
    {keys : Keyspace κ} {changed : Option Counter}
    (h : Function.update keys key changed other = some counter) :
    other = key ∧ changed = some counter ∨ other ≠ key ∧ keys other = some counter := by
  by_cases hother : other = key
  · subst hother
    rw [Function.update_self] at h
    exact Or.inl ⟨rfl, h⟩
  · rw [Function.update_of_ne hother] at h
    exact Or.inr ⟨hother, h⟩

variable {ms : Int}

theorem pexpire_cases (hms : 0 < ms) (now : Int) (key : κ) (keys : Keyspace κ) :
    keys key = none ∧ pexpire now ms key keys = keys ∨
      ∃ counter,
        keys key = some counter ∧
          pexpire now ms key keys =
            Function.update keys key (some { counter with expiresAt := some (now + ms) }) := by
  unfold pexpire
  cases hkey : keys key with
  | none => exact Or.inl ⟨rfl, rfl⟩
  | some counter =>
      refine Or.inr ⟨counter, rfl, ?_⟩
      simp only
      rw [if_neg (by omega)]

theorem expire_cases {now : Int} {keys keys' : Keyspace κ} (h : expire now key keys = some keys') :
    ∃ counter expiresAt,
      keys key = some counter ∧ counter.expiresAt = some expiresAt ∧ expiresAt ≤ now ∧
        keys' = Function.update keys key none := by
  unfold expire at h
  split at h
  · next hdue =>
      obtain ⟨counter, hkey, hisDue⟩ := (Option.any_eq_true _ _).mp hdue
      unfold isDue at hisDue
      cases hexp : counter.expiresAt with
      | none =>
          rw [hexp] at hisDue
          cases hisDue
      | some expiresAt =>
          rw [hexp] at hisDue
          exact ⟨counter, expiresAt, hkey, hexp, of_decide_eq_true hisDue, (Option.some.inj h).symm⟩
  · cases h

theorem born_incr {keys : Keyspace κ} (h : keys other = some counter) (now : Int) (key : κ) :
    ∃ after, incr now key keys other = some after ∧ after.born = counter.born := by
  unfold incr
  by_cases hother : other = key
  · subst hother
    rw [Function.update_self, h]
    exact ⟨_, rfl, rfl⟩
  · rw [Function.update_of_ne hother]
    exact ⟨counter, h, rfl⟩

theorem born_pexpire
    {keys : Keyspace κ}
    (hms : 0 < ms)
    (h : keys other = some counter)
    (now : Int) (key : κ) :
    ∃ after, pexpire now ms key keys other = some after ∧ after.born = counter.born := by
  rcases pexpire_cases hms now key keys with ⟨-, heq⟩ | ⟨before, hkey, heq⟩
  · rw [heq]
    exact ⟨counter, h, rfl⟩
  · rw [heq]
    by_cases hother : other = key
    · subst hother
      rw [hkey] at h
      obtain rfl := Option.some.inj h
      rw [Function.update_self]
      exact ⟨_, rfl, rfl⟩
    · rw [Function.update_of_ne hother]
      exact ⟨counter, h, rfl⟩

/-! ## Lives -/

/-- What the increments `entries` of all keys say about the lives of the keys. -/
structure Lives (ms now : Int) (keys : Keyspace κ) (entries : List (Increment κ)) : Prop where
  past : ∀ p ∈ entries, 1 ≤ p.count ∧ p.born ≤ p.time ∧ p.time ≤ now
  first : ∀ p ∈ entries, p.count = 1 → p.time = p.born
  distinct :
    entries.Pairwise fun p q => p.key = q.key → p.born = q.born → p.count ≠ q.count
  apart :
    ∀ p ∈ entries, ∀ q ∈ entries, p.key = q.key → p.born < q.born →
      p.time ≤ q.born ∧ p.born + ms ≤ q.born
  present :
    ∀ key counter, keys key = some counter →
      1 ≤ counter.count ∧ counter.born ≤ now ∧
        ∀ expiresAt ∈ counter.expiresAt, counter.born + ms ≤ expiresAt
  current :
    ∀ p ∈ entries, ∀ counter, keys p.key = some counter →
      p.born = counter.born ∧ p.count ≤ counter.count ∨
        p.time ≤ counter.born ∧ p.born + ms ≤ counter.born
  absent : ∀ p ∈ entries, keys p.key = none → p.born + ms ≤ now

section Lives

variable {ms now : Int}
variable {keys : Keyspace κ}
variable {entries : List (Increment κ)}

omit [DecidableEq κ] in
theorem lives_empty : Lives ms now (fun _ : κ => none) [] where
  past := by
    intro p hp
    cases hp
  first := by
    intro p hp
    cases hp
  distinct := List.Pairwise.nil
  apart := by
    intro p hp
    cases hp
  present := by
    intro key counter hkey
    cases hkey
  current := by
    intro p hp
    cases hp
  absent := by
    intro p hp
    cases hp

omit [DecidableEq κ] in
/-- Fewer increments say less, and the order in which they are listed says nothing. -/
theorem Lives.subperm
    {fewer : List (Increment κ)}
    (h : Lives ms now keys entries)
    (hsub : fewer.Subperm entries) :
    Lives ms now keys fewer := by
  have hmem : ∀ p ∈ fewer, p ∈ entries := fun p hp => hsub.subset hp
  refine
    { past := fun p hp => h.past p (hmem p hp)
      first := fun p hp => h.first p (hmem p hp)
      distinct := ?_
      apart := fun p hp q hq => h.apart p (hmem p hp) q (hmem q hq)
      present := h.present
      current := fun p hp => h.current p (hmem p hp)
      absent := fun p hp => h.absent p (hmem p hp) }
  obtain ⟨listed, hperm, hsublist⟩ := hsub
  refine List.Perm.pairwise hperm (h.distinct.sublist hsublist) ?_
  intro p q hpq hkey hborn hcount
  exact hpq hkey.symm hborn.symm hcount.symm

omit [DecidableEq κ] in
theorem Lives.later {now' : Int} (h : Lives ms now keys entries) (hle : now ≤ now') :
    Lives ms now' keys entries where
  past := by
    intro p hp
    obtain ⟨hcount, hborn, htime⟩ := h.past p hp
    exact ⟨hcount, hborn, htime.trans hle⟩
  first := h.first
  distinct := h.distinct
  apart := h.apart
  present := by
    intro key counter hkey
    obtain ⟨hcount, hborn, hexp⟩ := h.present key counter hkey
    exact ⟨hcount, hborn.trans hle, hexp⟩
  current := h.current
  absent := fun p hp hkey => (h.absent p hp hkey).trans hle

/-- The new increment is in a life of its own, or the last of the current one. -/
theorem Lives.incr (hms : 0 < ms) (h : Lives ms now keys entries) (key : κ) :
    Lives ms now (incr now key keys) (incrementOf now key keys :: entries) := by
  have hnew :
      1 ≤ (counterAfter now (keys key)).count ∧ (counterAfter now (keys key)).born ≤ now := by
    cases hkey : keys key with
    | none => simp [counterAfter]
    | some counter =>
        have hpresent := h.present key counter hkey
        simp only [counterAfter]
        omega
  -- an earlier increment of the key against the counter as it now stands
  have hold :
      ∀ p ∈ entries, p.key = key →
        p.born = (counterAfter now (keys key)).born ∧
            p.count < (counterAfter now (keys key)).count ∨
          p.born < (counterAfter now (keys key)).born ∧
            p.time ≤ (counterAfter now (keys key)).born ∧
            p.born + ms ≤ (counterAfter now (keys key)).born := by
    intro p hp hpk
    have hpast := h.past p hp
    cases hkey : keys key with
    | none =>
        have habsent := h.absent p hp (by rw [hpk, hkey])
        simp only [counterAfter]
        omega
    | some counter =>
        have hcurrent := h.current p hp counter (by rw [hpk, hkey])
        simp only [counterAfter]
        omega
  exact
    { past := by
        intro p hp
        rcases List.mem_cons.mp hp with rfl | hp
        · exact ⟨hnew.1, hnew.2, le_rfl⟩
        · exact h.past p hp
      first := by
        intro p hp hone
        rcases List.mem_cons.mp hp with rfl | hp
        · cases hkey : keys key with
          | none => simp [incrementOf, counterAfter, hkey]
          | some counter =>
              have hpresent := h.present key counter hkey
              simp only [incrementOf, counterAfter, hkey] at hone
              omega
        · exact h.first p hp hone
      distinct := by
        refine List.pairwise_cons.mpr ⟨?_, h.distinct⟩
        intro q hq hkey hborn hcount
        simp only [incrementOf] at hkey hborn hcount
        have hcase := hold q hq hkey.symm
        omega
      apart := by
        intro p hp q hq hkey hborn
        rcases List.mem_cons.mp hp with rfl | hp
        · rcases List.mem_cons.mp hq with rfl | hq
          · omega
          · simp only [incrementOf] at hkey hborn
            have hcase := hold q hq hkey.symm
            omega
        · rcases List.mem_cons.mp hq with rfl | hq
          · simp only [incrementOf] at hkey hborn ⊢
            have hcase := hold p hp hkey
            omega
          · exact h.apart p hp q hq hkey hborn
      present := by
        intro other counter hother
        rcases update_cases hother with ⟨rfl, hcounter⟩ | ⟨-, hcounter⟩
        · obtain rfl := Option.some.inj hcounter
          refine ⟨hnew.1, hnew.2, ?_⟩
          intro expiresAt hexp
          cases hkey : keys other with
          | none =>
              rw [hkey] at hexp
              cases hexp
          | some before =>
              rw [hkey] at hexp
              exact (h.present other before hkey).2.2 expiresAt hexp
        · exact h.present other counter hcounter
      current := by
        intro p hp counter hcounter
        rcases update_cases hcounter with ⟨hkey, hcounter⟩ | ⟨hkey, hcounter⟩
        · obtain rfl := Option.some.inj hcounter
          rcases List.mem_cons.mp hp with rfl | hp
          · exact Or.inl ⟨rfl, le_rfl⟩
          · have hcase := hold p hp hkey
            omega
        · rcases List.mem_cons.mp hp with rfl | hp
          · exact absurd rfl hkey
          · exact h.current p hp counter hcounter
      absent := by
        intro p hp hgone
        by_cases hkey : p.key = key
        · rw [hkey, ExpiringCounters.incr, Function.update_self] at hgone
          cases hgone
        · rw [ExpiringCounters.incr, Function.update_of_ne hkey] at hgone
          rcases List.mem_cons.mp hp with rfl | hp
          · exact absurd rfl hkey
          · exact h.absent p hp hgone }

/-- A later expiry keeps every life at least as long as it has to be. -/
theorem Lives.pexpire (hms : 0 < ms) (h : Lives ms now keys entries) (key : κ) :
    Lives ms now (pexpire now ms key keys) entries := by
  rcases pexpire_cases hms now key keys with
    ⟨-, heq⟩ | ⟨counter, hkey, heq⟩
  · rw [heq]
    exact h
  · rw [heq]
    have hpresent := h.present key counter hkey
    exact
      { past := h.past
        first := h.first
        distinct := h.distinct
        apart := h.apart
        present := by
          intro other after hother
          rcases update_cases hother with ⟨rfl, hafter⟩ | ⟨-, hafter⟩
          · obtain rfl := Option.some.inj hafter
            refine ⟨hpresent.1, hpresent.2.1, ?_⟩
            intro expiresAt hexp
            obtain rfl := Option.some.inj hexp
            simp only
            omega
          · exact h.present other after hafter
        current := by
          intro p hp after hafter
          rcases update_cases hafter with ⟨hpk, hafter⟩ | ⟨-, hafter⟩
          · obtain rfl := Option.some.inj hafter
            exact h.current p hp counter (by rw [hpk, hkey])
          · exact h.current p hp after hafter
        absent := by
          intro p hp hgone
          by_cases hpk : p.key = key
          · rw [hpk, Function.update_self] at hgone
            cases hgone
          · rw [Function.update_of_ne hpk] at hgone
            exact h.absent p hp hgone }

theorem Lives.expire
    {key : κ} {keys' : Keyspace κ}
    (h : Lives ms now keys entries)
    (hexpire : expire now key keys = some keys') :
    Lives ms now keys' entries := by
  obtain ⟨counter, expiresAt, hkey, hexp, hdue, rfl⟩ := expire_cases hexpire
  have hborn := (h.present key counter hkey).2.1
  have hlong := (h.present key counter hkey).2.2 expiresAt (by rw [hexp]; rfl)
  exact
    { past := h.past
      first := h.first
      distinct := h.distinct
      apart := h.apart
      present := by
        intro other after hother
        rcases update_cases hother with ⟨-, hafter⟩ | ⟨-, hafter⟩
        · cases hafter
        · exact h.present other after hafter
      current := by
        intro p hp after hafter
        rcases update_cases hafter with ⟨-, hafter⟩ | ⟨-, hafter⟩
        · cases hafter
        · exact h.current p hp after hafter
      absent := by
        intro p hp hgone
        by_cases hpk : p.key = key
        · have hcurrent := h.current p hp counter (by rw [hpk, hkey])
          omega
        · rw [Function.update_of_ne hpk] at hgone
          exact h.absent p hp hgone }

end Lives

/-! ## Windows -/

/-- The increments of a key in the window `(t - ms, t]` with a reply of at most `limit`. -/
def window (ms t : Int) (limit : Nat) (key : κ) (entries : List (Increment κ)) :
    List (Increment κ) :=
  entries.filter fun p =>
    decide (p.key = key ∧ t - ms < p.time ∧ p.time ≤ t ∧ p.count ≤ limit)

theorem mem_window {t : Int} {limit : Nat} {entries : List (Increment κ)} {p : Increment κ} :
    p ∈ window ms t limit key entries ↔
      p ∈ entries ∧ p.key = key ∧ t - ms < p.time ∧ p.time ≤ t ∧ p.count ≤ limit := by
  simp [window]

section Windows

variable {ms now t : Int}
variable {keys : Keyspace κ}
variable {entries : List (Increment κ)}
variable {key : κ}
variable {limit : Nat}

/-- No two increments of a window have the same life and the same reply. -/
theorem Lives.window_length_le_card
    (h : Lives ms now keys entries)
    (slots : Finset (Int × Nat))
    (hslots : ∀ p ∈ window ms t limit key entries, (p.born, p.count) ∈ slots) :
    (window ms t limit key entries).length ≤ slots.card := by
  have hnodup :
      ((window ms t limit key entries).map fun p => (p.born, p.count)).Nodup := by
    refine List.pairwise_map.mpr ?_
    refine List.Pairwise.imp_of_mem ?_ (h.distinct.sublist List.filter_sublist)
    intro p q hp hq hpq heq
    have hkey : p.key = q.key := by
      rw [(mem_window.mp hp).2.1, (mem_window.mp hq).2.1]
    obtain ⟨hborn, hcount⟩ := Prod.ext_iff.mp heq
    exact hpq hkey hborn hcount
  have hsubset :
      ((window ms t limit key entries).map fun p => (p.born, p.count)).toFinset ⊆ slots := by
    intro pair hpair
    obtain ⟨p, hp, rfl⟩ := List.mem_map.mp (List.mem_toFinset.mp hpair)
    exact hslots p hp
  have hcard := Finset.card_le_card hsubset
  rw [List.toFinset_card_of_nodup hnodup, List.length_map] at hcard
  exact hcard

/-- A window in one life. -/
theorem Lives.window_length_le_of_born
    (h : Lives ms now keys entries)
    {born : Int}
    (hborn : ∀ p ∈ window ms t limit key entries, p.born = born) :
    (window ms t limit key entries).length ≤ limit := by
  have hcard :
      (window ms t limit key entries).length ≤
        (({born} : Finset Int) ×ˢ Finset.Icc 1 limit).card := by
    refine h.window_length_le_card _ ?_
    intro p hp
    have hmem := mem_window.mp hp
    have hcount := (h.past p hmem.1).1
    simp [hborn p hp, hcount, hmem.2.2.2.2]
  simpa using hcard

/-- Between the first and the last life that a window touches there is no third. -/
theorem Lives.window_length_le (h : Lives ms now keys entries) (t : Int) (limit : Nat) (key : κ) :
    (window ms t limit key entries).length ≤ 2 * limit - 1 := by
  by_cases hnil : window ms t limit key entries = []
  · rw [hnil]
    exact Nat.zero_le _
  obtain ⟨entry, hentry⟩ := List.exists_mem_of_ne_nil _ hnil
  have hne : ((window ms t limit key entries).map Increment.born).toFinset.Nonempty :=
    ⟨entry.born, List.mem_toFinset.mpr (List.mem_map_of_mem hentry)⟩
  obtain ⟨first, hfirst, hleast⟩ := Finset.exists_min_image _ id hne
  obtain ⟨last, hlast, hgreatest⟩ := Finset.exists_max_image _ id hne
  obtain ⟨p, hp, rfl⟩ := List.mem_map.mp (List.mem_toFinset.mp hfirst)
  obtain ⟨r, hr, rfl⟩ := List.mem_map.mp (List.mem_toFinset.mp hlast)
  have hp' := mem_window.mp hp
  have hr' := mem_window.mp hr
  have hpcount := (h.past p hp'.1).1
  have hrtime := (h.past r hr'.1).2.1
  have hbetween : ∀ q ∈ window ms t limit key entries, p.born ≤ q.born ∧ q.born ≤ r.born := by
    intro q hq
    have hmem : q.born ∈ ((window ms t limit key entries).map Increment.born).toFinset :=
      List.mem_toFinset.mpr (List.mem_map_of_mem hq)
    exact ⟨hleast _ hmem, hgreatest _ hmem⟩
  by_cases hsame : p.born = r.born
  · have hall : ∀ q ∈ window ms t limit key entries, q.born = p.born := by
      intro q hq
      have hq' := hbetween q hq
      omega
    have hone := h.window_length_le_of_born hall
    omega
  have hcard :
      (window ms t limit key entries).length ≤
        (({p.born} : Finset Int) ×ˢ Finset.Icc 2 limit ∪
          ({r.born} : Finset Int) ×ˢ Finset.Icc 1 limit).card := by
    refine h.window_length_le_card _ ?_
    intro q hq
    have hq' := mem_window.mp hq
    have hqborn := hbetween q hq
    have hqcount := (h.past q hq'.1).1
    have hpq := h.apart p hp'.1 q hq'.1 (by rw [hp'.2.1, hq'.2.1])
    have hqr := h.apart q hq'.1 r hr'.1 (by rw [hq'.2.1, hr'.2.1])
    have hqfirst := h.first q hq'.1
    simp only [Finset.mem_union, Finset.mem_product, Finset.mem_singleton, Finset.mem_Icc]
    omega
  have hunion := Finset.card_union_le
    (({p.born} : Finset Int) ×ˢ Finset.Icc 2 limit)
    (({r.born} : Finset Int) ×ˢ Finset.Icc 1 limit)
  simp only [Finset.card_product, Finset.card_singleton, Nat.card_Icc, one_mul] at hunion
  omega

end Windows

/-! ## Increments whose expiry was renewed in time -/

/-- The lives of the increments `done` last until their windows are over. -/
structure Covered
    (ms now : Int) (keys : Keyspace κ) (entries done : List (Increment κ)) : Prop where
  present :
    ∀ p ∈ done, ∀ counter, keys p.key = some counter →
      counter.born = p.born ∧ (∃ expiresAt ∈ counter.expiresAt, p.time + ms ≤ expiresAt) ∨
        p.time + ms ≤ counter.born
  absent : ∀ p ∈ done, keys p.key = none → p.time + ms ≤ now
  followed :
    ∀ p ∈ done, ∀ q ∈ entries, p.key = q.key → p.born < q.born → p.time + ms ≤ q.born

section Covered

variable {ms now : Int}
variable {keys : Keyspace κ}
variable {entries done : List (Increment κ)}

omit [DecidableEq κ] in
theorem covered_nil : Covered ms now keys entries [] where
  present := by
    intro p hp
    cases hp
  absent := by
    intro p hp
    cases hp
  followed := by
    intro p hp
    cases hp

omit [DecidableEq κ] in
theorem Covered.subset
    {fewer fewerDone : List (Increment κ)}
    (h : Covered ms now keys entries done)
    (hsub : fewer ⊆ entries)
    (hdone : fewerDone ⊆ done) :
    Covered ms now keys fewer fewerDone where
  present := fun p hp => h.present p (hdone hp)
  absent := fun p hp => h.absent p (hdone hp)
  followed := fun p hp q hq => h.followed p (hdone hp) q (hsub hq)

omit [DecidableEq κ] in
theorem Covered.later {now' : Int} (h : Covered ms now keys entries done) (hle : now ≤ now') :
    Covered ms now' keys entries done where
  present := h.present
  absent := fun p hp hkey => (h.absent p hp hkey).trans hle
  followed := h.followed

theorem Covered.incr (h : Covered ms now keys entries done) (key : κ) :
    Covered ms now (incr now key keys) (incrementOf now key keys :: entries) done where
  present := by
    intro p hp counter hcounter
    rcases update_cases hcounter with ⟨hpk, hcounter⟩ | ⟨-, hcounter⟩
    · obtain rfl := Option.some.inj hcounter
      cases hkey : keys key with
      | none => exact Or.inr (h.absent p hp (by rw [hpk, hkey]))
      | some before => exact h.present p hp before (by rw [hpk, hkey])
    · exact h.present p hp counter hcounter
  absent := by
    intro p hp hgone
    by_cases hpk : p.key = key
    · rw [hpk, ExpiringCounters.incr, Function.update_self] at hgone
      cases hgone
    · rw [ExpiringCounters.incr, Function.update_of_ne hpk] at hgone
      exact h.absent p hp hgone
  followed := by
    intro p hp q hq hkey hborn
    rcases List.mem_cons.mp hq with rfl | hq
    · simp only [incrementOf] at hkey hborn ⊢
      cases hcase : keys key with
      | none => exact h.absent p hp (by rw [hkey, hcase])
      | some counter =>
          rw [hcase] at hborn
          simp only [counterAfter] at hborn ⊢
          rcases h.present p hp counter (by rw [hkey, hcase]) with ⟨hsame, -⟩ | hnext
          · omega
          · exact hnext
    · exact h.followed p hp q hq hkey hborn

/-- Renewing the expiry of a key covers the increments in the life it is in. -/
theorem Covered.pexpire
    (h : Covered ms now keys entries done)
    (hlives : Lives ms now keys entries)
    (hms : 0 < ms)
    (hsub : done ⊆ entries)
    (key : κ) :
    Covered ms now (pexpire now ms key keys) entries done := by
  rcases pexpire_cases hms now key keys with
    ⟨-, heq⟩ | ⟨counter, hkey, heq⟩
  · rw [heq]
    exact h
  · rw [heq]
    exact
      { present := by
          intro p hp after hafter
          rcases update_cases hafter with ⟨hpk, hafter⟩ | ⟨-, hafter⟩
          · obtain rfl := Option.some.inj hafter
            rcases h.present p hp counter (by rw [hpk, hkey]) with ⟨hsame, -⟩ | hnext
            · have htime := (hlives.past p (hsub hp)).2.2
              exact Or.inl ⟨hsame, now + ms, rfl, by omega⟩
            · exact Or.inr hnext
          · exact h.present p hp after hafter
        absent := by
          intro p hp hgone
          by_cases hpk : p.key = key
          · rw [hpk, Function.update_self] at hgone
            cases hgone
          · rw [Function.update_of_ne hpk] at hgone
            exact h.absent p hp hgone
        followed := h.followed }

/-- An increment is done once the expiry of the life it counted in is renewed. -/
theorem Covered.renewed
    {p : Increment κ} {counter : Counter}
    (h : Covered ms now (ExpiringCounters.pexpire now ms p.key keys) entries done)
    (hlives : Lives ms now keys entries)
    (hms : 0 < ms)
    (hmem : p ∈ entries)
    (hkey : keys p.key = some counter)
    (hborn : counter.born = p.born) :
    Covered ms now (ExpiringCounters.pexpire now ms p.key keys) entries (p :: done) := by
  rcases pexpire_cases hms now p.key keys with
    ⟨hnone, -⟩ | ⟨before, hbefore, heq⟩
  · rw [hkey] at hnone
    cases hnone
  rw [hkey] at hbefore
  obtain rfl := Option.some.inj hbefore
  rw [heq] at h ⊢
  have htime := (hlives.past p hmem).2.2
  exact
    { present := by
        intro q hq after hafter
        rcases List.mem_cons.mp hq with rfl | hq
        · rw [Function.update_self] at hafter
          obtain rfl := Option.some.inj hafter
          exact Or.inl ⟨hborn, now + ms, rfl, by omega⟩
        · exact h.present q hq after hafter
      absent := by
        intro q hq hgone
        rcases List.mem_cons.mp hq with rfl | hq
        · rw [Function.update_self] at hgone
          cases hgone
        · exact h.absent q hq hgone
      followed := by
        intro q hq r hr hsame hlater
        rcases List.mem_cons.mp hq with rfl | hq
        · -- no increment is in a later life than the current one
          have hcurrent := hlives.current r hr counter (by rw [← hsame, hkey])
          omega
        · exact h.followed q hq r hr hsame hlater }

theorem Covered.expire
    {key : κ} {keys' : Keyspace κ}
    (h : Covered ms now keys entries done)
    (hlives : Lives ms now keys entries)
    (hexpire : expire now key keys = some keys') :
    Covered ms now keys' entries done := by
  obtain ⟨counter, expiresAt, hkey, hexp, hdue, rfl⟩ := expire_cases hexpire
  have hborn := (hlives.present key counter hkey).2.1
  exact
    { present := by
        intro p hp after hafter
        rcases update_cases hafter with ⟨-, hafter⟩ | ⟨-, hafter⟩
        · cases hafter
        · exact h.present p hp after hafter
      absent := by
        intro p hp hgone
        by_cases hpk : p.key = key
        · rcases h.present p hp counter (by rw [hpk, hkey]) with ⟨-, due, hmem, hlong⟩ | hnext
          · rw [hexp] at hmem
            obtain rfl := Option.some.inj hmem
            omega
          · omega
        · rw [Function.update_of_ne hpk] at hgone
          exact h.absent p hp hgone
      followed := h.followed }

/-- All increments of a window that are done belong to one life. -/
theorem Covered.window_length_le
    (h : Covered ms now keys entries done)
    (hlives : Lives ms now keys done)
    (hsub : done ⊆ entries)
    (t : Int) (limit : Nat) (key : κ) :
    (window ms t limit key done).length ≤ limit := by
  by_cases hnil : window ms t limit key done = []
  · rw [hnil]
    exact Nat.zero_le _
  obtain ⟨p, hp⟩ := List.exists_mem_of_ne_nil _ hnil
  refine hlives.window_length_le_of_born (?_ : ∀ q ∈ window ms t limit key done, q.born = p.born)
  intro q hq
  have hp' := mem_window.mp hp
  have hq' := mem_window.mp hq
  have hptime := (hlives.past p hp'.1).2.1
  have hqtime := (hlives.past q hq'.1).2.1
  rcases lt_trichotomy q.born p.born with hlt | heq | hlt
  · have hfollowed := h.followed q hq'.1 p (hsub hp'.1) (by rw [hp'.2.1, hq'.2.1]) hlt
    omega
  · exact heq
  · have hfollowed := h.followed p hp'.1 q (hsub hq'.1) (by rw [hp'.2.1, hq'.2.1]) hlt
    omega

end Covered

end ExpiringCounters
end Lib
end NestBase
