import MtProxy.MiddleProxy.Wire
import MtProxy.Stats.UserStats
import Mathlib.Data.Finset.Sort
import Mathlib.Data.String.Basic

/-! `UserIpTracker`: the addresses every user is connected from, and how many there may be. The
    tracked addresses are a set, so a second connection from an address leaves no trace in it. -/

namespace MtProxy
open MiddleProxy (IpAddr)

structure UserIpTracker where
  activeIps : UserMap (Finset IpAddr)
  maxIps : UserMap ℕ

namespace UserIpTracker

def new : UserIpTracker := ⟨∅, ∅⟩

/-- The limits of the configuration are inserted one by one: they win, and the entries that are not
    in the configuration stay. -/
def loadLimits (t : UserIpTracker) (limits : UserMap ℕ) : UserIpTracker :=
  { t with maxIps := limits ∪ t.maxIps }

def getActiveIps (t : UserIpTracker) (username : String) : Finset IpAddr :=
  (t.activeIps.lookup username).getD ∅

def getActiveIpCount (t : UserIpTracker) (username : String) : ℕ :=
  ((t.activeIps.lookup username).map Finset.card).getD 0

/-- The users with an entry, in the order of their names, each with the number of addresses and the
    limit. -/
def getStats (t : UserIpTracker) : List (String × ℕ × ℕ) :=
  (t.activeIps.keys.sort).map
    (fun username => (username, t.getActiveIpCount username, (t.maxIps.lookup username).getD 0))

def setActiveIps (t : UserIpTracker) (username : String) (ips : Finset IpAddr) : UserIpTracker :=
  { t with activeIps := t.activeIps.insert username ips }

def limitReached (username : String) (count limit : ℕ) : String :=
  "IP limit reached for user '" ++ username ++ "': " ++ toString count ++ "/" ++ toString limit ++
    " unique IPs already connected"

/-- The second part of `check_and_add`, under the lock of `active_ips`, with the limit that was read
    before. The user's entry is there afterwards, also when the address was refused. -/
def addWithin (t : UserIpTracker) (limit : Option ℕ) (username : String) (ip : IpAddr) :
    UserIpTracker × Except String Unit :=
  let userIps := t.getActiveIps username
  match limit with
  | none => (t.setActiveIps username (insert ip userIps), .ok ())
  | some limit =>
    if ip ∈ userIps then (t.setActiveIps username userIps, .ok ())
    else if limit ≤ userIps.card then
      (t.setActiveIps username userIps, .error (limitReached username userIps.card limit))
    else (t.setActiveIps username (insert ip userIps), .ok ())

def checkAndAdd (t : UserIpTracker) (username : String) (ip : IpAddr) :
    UserIpTracker × Except String Unit :=
  t.addWithin (t.maxIps.lookup username) username ip

def getUserLimit (t : UserIpTracker) (username : String) : Option ℕ := t.maxIps.lookup username

def removeIp (t : UserIpTracker) (username : String) (ip : IpAddr) : UserIpTracker :=
  match t.activeIps.lookup username with
  | some userIps =>
    if userIps.erase ip = ∅ then { t with activeIps := t.activeIps.erase username }
    else t.setActiveIps username (userIps.erase ip)
  | none => t

section
variable (t : UserIpTracker) (username other : String) (ip : IpAddr) (limit : Option ℕ)

@[simp] theorem getActiveIps_setActiveIps (ips : Finset IpAddr) :
    (t.setActiveIps username ips).getActiveIps other =
      if other = username then ips else t.getActiveIps other := by
  split
  · next h =>
    subst h
    simp [getActiveIps, setActiveIps]
  · next h => simp [getActiveIps, setActiveIps, Finmap.lookup_insert_of_ne _ h]

@[simp] theorem setActiveIps_maxIps (ips : Finset IpAddr) :
    (t.setActiveIps username ips).maxIps = t.maxIps := rfl

/-- The address is among the user's afterwards, or it is refused and they are the same. -/
theorem addWithin_cases :
    t.addWithin limit username ip =
        (t.setActiveIps username (insert ip (t.getActiveIps username)), .ok ()) ∨
      ∃ n, limit = some n ∧ ip ∉ t.getActiveIps username ∧ n ≤ (t.getActiveIps username).card ∧
        t.addWithin limit username ip =
          (t.setActiveIps username (t.getActiveIps username),
            .error (limitReached username (t.getActiveIps username).card n)) := by
  cases limit with
  | none => exact .inl rfl
  | some n =>
    simp only [addWithin]
    split
    · next hmem => exact .inl (by rw [Finset.insert_eq_self.mpr hmem])
    · next hnew =>
      split
      · next hfull => exact .inr ⟨n, rfl, hnew, hfull, rfl⟩
      · exact .inl rfl

theorem addWithin_ok (h : (t.addWithin limit username ip).2 = .ok ()) :
    (t.addWithin limit username ip).1.getActiveIps other =
      if other = username then insert ip (t.getActiveIps username) else t.getActiveIps other := by
  obtain heq | ⟨n, -, -, -, heq⟩ := t.addWithin_cases username ip limit
  · rw [heq, getActiveIps_setActiveIps]
  · rw [heq] at h
    cases h

theorem addWithin_error {reason : String} (h : (t.addWithin limit username ip).2 = .error reason) :
    (t.addWithin limit username ip).1.getActiveIps other = t.getActiveIps other := by
  obtain heq | ⟨n, -, -, -, heq⟩ := t.addWithin_cases username ip limit
  · rw [heq] at h
    cases h
  · rw [heq, getActiveIps_setActiveIps]
    split
    · next h => rw [h]
    · rfl

@[simp] theorem addWithin_maxIps : (t.addWithin limit username ip).1.maxIps = t.maxIps := by
  obtain heq | ⟨n, -, -, -, heq⟩ := t.addWithin_cases username ip limit
  · rw [heq, setActiveIps_maxIps]
  · rw [heq, setActiveIps_maxIps]

/-- An address is added within the limit only. -/
theorem card_addWithin {n : ℕ} (h : (t.getActiveIps username).card ≤ n) :
    ((t.addWithin (some n) username ip).1.getActiveIps username).card ≤ n := by
  unfold addWithin
  simp only
  split
  · simpa using h
  · split
    · simpa using h
    · have := Finset.card_insert_le ip (t.getActiveIps username)
      simp
      omega

theorem addWithin_other (h : other ≠ username) :
    (t.addWithin limit username ip).1.getActiveIps other = t.getActiveIps other := by
  cases hresult : (t.addWithin limit username ip).2 with
  | ok _ => rw [addWithin_ok _ _ _ _ _ hresult, if_neg h]
  | error reason => exact addWithin_error _ _ _ _ _ hresult

theorem getActiveIps_removeIp :
    (t.removeIp username ip).getActiveIps other =
      if other = username then (t.getActiveIps username).erase ip else t.getActiveIps other := by
  fun_cases removeIp t username ip with
  | case1 userIps hlookup hempty =>
    split
    · next h =>
      subst h
      simp [getActiveIps, hlookup, hempty]
    · next h => simp [getActiveIps, Finmap.lookup_erase_ne h]
  | case2 userIps hlookup hne =>
    rw [getActiveIps_setActiveIps]
    simp only [getActiveIps, hlookup, Option.getD_some]
  | case3 hlookup =>
    split
    · next h =>
      subst h
      simp [getActiveIps, hlookup]
    · rfl

@[simp] theorem removeIp_maxIps : (t.removeIp username ip).maxIps = t.maxIps := by
  fun_cases removeIp t username ip <;> rfl

end

end UserIpTracker

end MtProxy
