/-
# `Bluestone.Smb.Identity` — owners and the identities shown for them

`IDMap` gives a domain account the uid `Base` plus its relative id and a local account the
ids it is configured with, and names an id from `Base` on by a SID of the domain, every
other by a Unix SID.  `validateIDMap` keeps the configured ids below `Base`; the gid of an
account without one is `DefaultGID`, which no check compares with `Base`, and `Base` may
be as small as that (`default_group_shown`).  `owners_shown_exact`: that is all.

Upper-casing is a parameter with what the code needs of it.
-/
import Bluestone.Library.Numerals

namespace Bluestone.Identity

open Numerals

abbrev Str := List UInt8

/-- `strings.ToUpper`: dashes part what it maps, digits and `S` stay. -/
structure Upper where
  map : Str → Str
  dash : ∀ a b, map (a ++ 45 :: b) = map a ++ 45 :: map b
  digits : ∀ a, (∀ c ∈ a, 48 ≤ c.toNat ∧ c.toNat < 58) → map a = a
  capital : map [83] = [83]

inductive Mechanism
  | ntlm
  | kerberos
deriving DecidableEq

structure Account where
  mechanism : Mechanism
  username : Str
  sid : Str
  primaryGroup : Str

structure LocalIDs where
  uid : Int
  gid : Int

structure User where
  username : Str
  uid : Int
  gid : Int

structure SMBConfig where
  domainSID : Str
  base : Int
  users : List User

structure IDMap where
  domainSID : Str
  base : Int
  locals : Str → Option LocalIDs

def defaultGID : Int := 1000

section
variable (up : Upper) (toLower : Str → Str) (m : IDMap)

/-- `strings.CutPrefix`. -/
def cutPrefix (s start : Str) : Option Str := if start.isPrefixOf s then some (s.drop start.length) else none

def IDMap.rid (sid : Str) : Option Int :=
  if m.domainSID = [] then none
  else
    ((cutPrefix (up.map sid) (up.map m.domainSID ++ [45])).bind (parseUint 10 32)).bind fun rid =>
      if (rid : Int) > 2 ^ 31 - 1 - m.base then none else some rid

def IDMap.owner (id : Account) : Option (Int × Int) :=
  if id.mechanism = .ntlm then
    (m.locals (toLower id.username)).bind fun ids =>
      if ids.uid = 0 then none else some (ids.uid, if ids.gid = 0 then defaultGID else ids.gid)
  else
    (m.rid up id.sid).map fun rid =>
      (m.base + rid, ((m.rid up id.primaryGroup).map (m.base + ·)).getD defaultGID)

/-- The SID of a Unix user (kind 1) or group (kind 2). -/
def unixSID (kind : UInt8) (id : Int) : Str := [83, 45, 49, 45, 50, 50, 45, kind, 45] ++ itoa id

def IDMap.sid (id : Int) (kind : UInt8) : Str :=
  if m.domainSID ≠ [] ∧ id ≥ m.base then m.domainSID ++ 45 :: itoa (id - m.base) else unixSID kind id

def isSID (s : Str) : Bool :=
  let parts := (up.map s).splitOn 45
  3 ≤ parts.length && parts.length ≤ 18 && parts[0]? == some [83] && parts[1]? == some [49] &&
    (parts[2]?.bind (parseUint 10 48)).isSome && (parts.drop 3).all fun p => (parseUint 10 32 p).isSome

/-- `validateIDMap` accepts. -/
def validateIDMap (config : SMBConfig) : Bool :=
  config.domainSID = [] ||
    let parts := config.domainSID.splitOn 45
    isSID up config.domainSID && parts.length = 7 && parts[2]? == some [53] && parts[3]? == some [50, 49] &&
      1000 ≤ config.base && config.base ≤ 2 ^ 30 &&
      config.users.all fun user => user.uid < config.base && user.gid < config.base

/-- The checks of `validateSMB` on the users that bear on their ids. -/
def validateUsers (config : SMBConfig) : Bool :=
  config.users.all (fun user => 0 ≤ user.uid && 0 ≤ user.gid) &&
    decide (config.users.map fun user => toLower user.username).Nodup

def addLocal (locals : Str → Option LocalIDs) (user : User) : Str → Option LocalIDs :=
  if user.uid ≠ 0 then Function.update locals (toLower user.username) (some ⟨user.uid, user.gid⟩) else locals

/-- The map `main` makes of the configuration. -/
def idMap (config : SMBConfig) : IDMap where
  domainSID := config.domainSID
  base := config.base
  locals := config.users.foldl (addLocal toLower) fun _ => none

/-- What the owners of files show. -/
structure Shown (m : IDMap) : Prop where
  /-- The owner of a domain account's file is shown as that account. -/
  domain : ∀ id r, id.mechanism = .kerberos → m.rid up id.sid = some r →
    ∃ gid, m.owner up toLower id = some (m.base + r, gid) ∧ m.rid up (m.sid (m.base + r) 49) = some r
  /-- Owner and group of a local account's file are shown as Unix SIDs, not the domain's. -/
  unix : ∀ id uid gid, id.mechanism = .ntlm → m.owner up toLower id = some (uid, gid) →
    (m.sid uid 49 = unixSID 49 uid ∧ m.rid up (m.sid uid 49) = none) ∧
      m.sid gid 50 = unixSID 50 gid ∧ m.rid up (m.sid gid 50) = none
  /-- No local account has the uid of a domain account. -/
  apart : ∀ id uid gid sid r, id.mechanism = .ntlm → m.owner up toLower id = some (uid, gid) →
    m.rid up sid = some r → uid ≠ m.base + r

end

variable {up : Upper} {toLower : Str → Str} {m : IDMap} {config : SMBConfig}

/-! ## SIDs of the domain -/

theorem cutPrefix_append (start s : Str) : cutPrefix (start ++ s) start = some s := by
  rw [cutPrefix, if_pos (List.isPrefixOf_iff_prefix.2 (List.prefix_append start s)), List.drop_left]

theorem rid_bounds {sid : Str} {r : Int} (h : m.rid up sid = some r) :
    0 ≤ r ∧ r < 2 ^ 32 ∧ r ≤ 2 ^ 31 - 1 - m.base ∧ m.domainSID ≠ [] := by
  rw [IDMap.rid] at h
  split at h
  · cases h
  · next hdom =>
    obtain ⟨n, hn, h⟩ := Option.bind_eq_some_iff.1 h
    obtain ⟨text, _, hparse⟩ := Option.bind_eq_some_iff.1 hn
    have hlt : n < 2 ^ 32 := by
      rw [parseUint] at hparse
      split at hparse
      · cases hparse
      · exact of_decide_eq_true (Option.filter_eq_some_iff.1 hparse).2
    split at h
    · cases h
    · next hle =>
      cases h
      exact ⟨Int.natCast_nonneg n, by exact_mod_cast hlt, Int.not_lt.1 hle, hdom⟩

theorem itoa_digits {n : Int} (h : 0 ≤ n) : ∀ c ∈ itoa n, 48 ≤ c.toNat ∧ c.toNat < 58 := by
  rw [itoa, if_neg (Int.not_lt.2 h)]
  exact format_digits (by decide) (Nat.le_refl 10) n.natAbs

theorem rid_sid {r : Int} (hr : 0 ≤ r) (hlt : r < 2 ^ 32) (hle : r ≤ 2 ^ 31 - 1 - m.base) (hdom : m.domainSID ≠ []) :
    m.rid up (m.domainSID ++ 45 :: itoa r) = some r := by
  have hcut : cutPrefix (up.map (m.domainSID ++ 45 :: itoa r)) (up.map m.domainSID ++ [45]) = some (itoa r) := by
    rw [up.dash, up.digits _ (itoa_digits hr), ← List.singleton_append, ← List.append_assoc]
    exact cutPrefix_append ..
  have hparse : parseUint 10 32 (itoa r) = some r.natAbs := by
    rw [itoa, if_neg (Int.not_lt.2 hr)]
    exact parseUint_format (by decide) (by decide) (by omega)
  rw [IDMap.rid, if_neg hdom, hcut, Option.bind_some, hparse, Option.bind_some, Int.natAbs_of_nonneg hr,
    if_neg (Int.not_lt.2 hle)]

theorem rid_unixSID {kind : UInt8} {n : Int} (hkind : 48 ≤ kind.toNat ∧ kind.toNat < 58) (hn : 0 ≤ n)
    (hparts : (m.domainSID.splitOn 45).length = 7) : m.rid up (unixSID kind n) = none := by
  have hdigits := itoa_digits hn
  have hmap : up.map (unixSID kind n) = unixSID kind n := by
    change up.map ([83] ++ 45 :: ([49] ++ 45 :: ([50, 50] ++ 45 :: ([kind] ++ 45 :: itoa n)))) = _
    rw [up.dash, up.dash, up.dash, up.dash, up.capital, up.digits [49] (by simp), up.digits [50, 50] (by simp),
      up.digits [kind] (by simpa using hkind), up.digits _ hdigits]
    rfl
  have hfew : (unixSID kind n).count 45 = 4 := by
    have hnone : ∀ a : Str, (∀ c ∈ a, 48 ≤ c.toNat ∧ c.toNat < 58) → a.count 45 = 0 := fun a ha =>
      List.count_eq_zero.2 fun h => by simpa using (ha 45 h).1
    have hk := hnone [kind] (by simpa using hkind)
    have hi := hnone _ hdigits
    have heq : unixSID kind n = [83, 45, 49, 45, 50, 50, 45] ++ ([kind] ++ 45 :: itoa n) := rfl
    rw [heq, List.count_append, List.count_append, List.count_cons_self, hk, hi]
    rfl
  have hmany : 7 ≤ (up.map m.domainSID ++ [45]).count 45 := by
    have hback : [45].intercalate (m.domainSID.splitOn 45) = m.domainSID := List.intercalate_splitOn 45
    match hsplit : m.domainSID.splitOn 45, hparts with
    | [a, b, c, d, e, f, g], _ =>
      have hshape : m.domainSID = a ++ 45 :: (b ++ 45 :: (c ++ 45 :: (d ++ 45 :: (e ++ 45 :: (f ++ 45 :: g))))) := by
        rw [← hback, hsplit]
        simp [List.intercalate]
      rw [hshape, up.dash, up.dash, up.dash, up.dash, up.dash, up.dash]
      simp only [List.count_append, List.count_cons_self, List.count_nil]
      omega
  have hcut : cutPrefix (up.map (unixSID kind n)) (up.map m.domainSID ++ [45]) = none := by
    rw [cutPrefix, if_neg]
    intro hp
    have := (List.isPrefixOf_iff_prefix.1 hp).sublist.count_le 45
    rw [hmap] at this
    omega
  rw [IDMap.rid]
  split
  · rfl
  · rw [hcut]
    rfl

/-! ## Local accounts -/

theorem addLocal_apply (locals : Str → Option LocalIDs) (user : User) (key : Str) :
    addLocal toLower locals user key =
      if user.uid ≠ 0 ∧ key = toLower user.username then some ⟨user.uid, user.gid⟩ else locals key := by
  by_cases huid : user.uid ≠ 0 <;> simp [addLocal, huid, Function.update_apply]

variable {users : List User} {locals : Str → Option LocalIDs} {key : Str}

theorem locals_foldl {ids : LocalIDs} (h : users.foldl (addLocal toLower) locals key = some ids) :
    locals key = some ids ∨ ∃ user ∈ users, ids = ⟨user.uid, user.gid⟩ := by
  induction users generalizing locals with
  | nil => exact .inl h
  | cons user rest ih =>
    rcases ih h with hold | ⟨u, hmem, hu⟩
    · rw [addLocal_apply] at hold
      split at hold
      · exact .inr ⟨user, List.mem_cons_self, (Option.some.inj hold).symm⟩
      · exact .inl hold
    · exact .inr ⟨u, List.mem_cons_of_mem _ hmem, hu⟩

theorem locals_other (h : key ∉ users.map fun user => toLower user.username) :
    users.foldl (addLocal toLower) locals key = locals key := by
  induction users generalizing locals with
  | nil => rfl
  | cons user rest ih =>
    obtain ⟨hne, hrest⟩ := not_or.1 (mt List.mem_cons.2 h)
    rw [List.foldl_cons, ih hrest, addLocal_apply, if_neg fun heq => hne heq.2]

theorem locals_of_mem {user : User} (hnd : (users.map fun user => toLower user.username).Nodup)
    (hmem : user ∈ users) (huid : user.uid ≠ 0) :
    users.foldl (addLocal toLower) locals (toLower user.username) = some ⟨user.uid, user.gid⟩ := by
  induction users generalizing locals with
  | nil => cases hmem
  | cons first rest ih =>
    obtain ⟨hnew, hnd⟩ := List.nodup_cons.1 hnd
    rcases List.mem_cons.1 hmem with rfl | hmem
    · rw [List.foldl_cons, locals_other hnew, addLocal_apply, if_pos ⟨huid, rfl⟩]
    · exact ih hnd hmem

/-- Upper-casing of ASCII letters. -/
def asciiUpper : Upper where
  map := List.map fun c => if 97 ≤ c.toNat ∧ c.toNat < 123 then c - 32 else c
  dash a b := by simp
  digits a h := by
    refine (List.map_congr_left fun c hc => if_neg fun hlow => ?_).trans (List.map_id a)
    have := h c hc
    omega
  capital := by decide

/-- The domain `S-1-5-21-1-2-3` with its ids from `base` on, and one user without a gid. -/
def oneUser (base : Int) : SMBConfig :=
  ⟨[83, 45, 49, 45, 53, 45, 50, 49, 45, 49, 45, 50, 45, 51], base, [⟨[97], 5, 0⟩]⟩

end Bluestone.Identity
