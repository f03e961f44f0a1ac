import ProxyTun.Library.RecentEntries
import ProxyTun.Packets.Operations

/-!
# The list of logged connections

Every connection that was logged is put in front of a list, so that it is not logged again. The list
is cut when a connection is added and when stale connections are cleaned up, at different nodes.
-/
namespace ProxyTun.LoggedConnections
open Library.RecentEntries

/-- `is_connection_already_logged`. -/
def isConnectionAlreadyLogged (entry : LoggedConnection) : List LoggedConnection → Bool
  | [] => false
  | logged :: next =>
    if logged.pid = entry.pid ∧ logged.destIp = entry.destIp ∧ logged.destPort = entry.destPort ∧
        logged.action = entry.action then true
    else isConnectionAlreadyLogged entry next

def clearLoggedConnections : List LoggedConnection → List LoggedConnection
  | [] => []
  | _ :: next => clearLoggedConnections next

/-- `add_logged_connection`, where the allocation of the node may fail. -/
def Windows.addLoggedConnection (allocated : Bool) (entry : LoggedConnection)
    (logged : List LoggedConnection) : List LoggedConnection :=
  let temp := (Cursor.start logged).walk 98
  let logged := if 100 ≤ count logged ∧ !temp.isNull ∧ !temp.atLast then temp.cut else logged
  if allocated then entry :: logged else logged

def Windows.cleanupLogged (logged : List LoggedConnection) : List LoggedConnection :=
  let temp := (Cursor.start logged).walk 99
  if 100 < count logged ∧ !temp.isNull then temp.cut else logged

/-- `add_logged_connection`, which counts to 100 only. -/
def Linux.addLoggedConnection (allocated : Bool) (entry : LoggedConnection)
    (logged : List LoggedConnection) : List LoggedConnection :=
  let temp := (Cursor.start logged).walk 98
  let logged := if 100 ≤ countTo 100 logged ∧ !temp.isNull ∧ !temp.atLast then temp.cut else logged
  if allocated then entry :: logged else logged

def Linux.cleanupLogged (logged : List LoggedConnection) : List LoggedConnection :=
  let temp := (Cursor.start logged).walk 99
  if 100 < count logged ∧ !temp.isNull ∧ !temp.atLast then temp.cut else logged

def addLogged (pf : Platform) (allocated : Bool) (entry : LoggedConnection)
    (logged : List LoggedConnection) : List LoggedConnection :=
  match pf with
  | .windows => Windows.addLoggedConnection allocated entry logged
  | .linux => Linux.addLoggedConnection allocated entry logged

def cleanupLogged : Platform → List LoggedConnection → List LoggedConnection
  | .windows => Windows.cleanupLogged
  | .linux => Linux.cleanupLogged

/-- The list after a call, where memory is there for every new node. -/
def step (pf : Platform) (logged : List LoggedConnection) :
    Event LoggedConnection → List LoggedConnection
  | .add entry => addLogged pf true entry logged
  | .trim => cleanupLogged pf logged
  | .clear => clearLoggedConnections logged

/-- The list after some calls. -/
def after (pf : Platform) (events : List (Event LoggedConnection)) : List LoggedConnection :=
  events.foldl (step pf) []

variable {pf : Platform} {entry : LoggedConnection} {logged : List LoggedConnection}

theorem addLogged_eq (pf : Platform) (allocated : Bool) (entry : LoggedConnection)
    (logged : List LoggedConnection) :
    addLogged pf allocated entry logged =
      Shared.insertLogged allocated entry (Shared.trimLogged logged) := by
  have hkept (c : ℕ) (hc : 100 ≤ c ↔ 100 ≤ logged.length) :
      (if 100 ≤ c ∧ !((Cursor.start logged).walk 98).isNull ∧
          !((Cursor.start logged).walk 98).atLast then ((Cursor.start logged).walk 98).cut
        else logged) = Shared.trimLogged logged := by
    by_cases hlong : 100 ≤ logged.length
    · rw [Shared.trimLogged, if_pos hlong, Cursor.cut_walk, if_pos]
      refine ⟨hc.mpr hlong, ?_, ?_⟩
      · rw [Cursor.isNull_walk, decide_eq_false (by omega)]
        rfl
      · rw [Cursor.atLast_walk, decide_eq_false (by omega)]
        rfl
    · rw [Shared.trimLogged, if_neg hlong, if_neg fun h => hlong (hc.mp h.1)]
  cases pf with
  | windows =>
    have hcut := hkept (count logged) (by rw [count_eq])
    rw [addLogged, Windows.addLoggedConnection, hcut]
    rfl
  | linux =>
    have hcut := hkept (countTo 100 logged) (by rw [countTo_eq]; omega)
    rw [addLogged, Linux.addLoggedConnection, hcut]
    rfl

theorem cleanupLogged_eq (pf : Platform) (logged : List LoggedConnection) :
    cleanupLogged pf logged = logged.take 100 := by
  have hnull (h : 100 < logged.length) : (!((Cursor.start logged).walk 99).isNull) = true := by
    rw [Cursor.isNull_walk, decide_eq_false (by omega)]
    rfl
  have hlast (h : 100 < logged.length) : (!((Cursor.start logged).walk 99).atLast) = true := by
    rw [Cursor.atLast_walk, decide_eq_false (by omega)]
    rfl
  by_cases hlong : 100 < logged.length
  · cases pf with
    | windows =>
      rw [cleanupLogged, Windows.cleanupLogged, count_eq, if_pos ⟨hlong, hnull hlong⟩,
        Cursor.cut_walk]
    | linux =>
      rw [cleanupLogged, Linux.cleanupLogged, count_eq,
        if_pos ⟨hlong, hnull hlong, hlast hlong⟩, Cursor.cut_walk]
  · rw [List.take_of_length_le (by omega)]
    cases pf with
    | windows => rw [cleanupLogged, Windows.cleanupLogged, count_eq, if_neg fun h => hlong h.1]
    | linux => rw [cleanupLogged, Linux.cleanupLogged, count_eq, if_neg fun h => hlong h.1]

theorem clearLoggedConnections_eq (logged : List LoggedConnection) :
    clearLoggedConnections logged = [] := by
  induction logged with
  | nil => rfl
  | cons entry logged ih => rw [clearLoggedConnections, ih]

theorem isConnectionAlreadyLogged_iff :
    isConnectionAlreadyLogged entry logged = true ↔ entry ∈ logged := by
  induction logged with
  | nil => simp [isConnectionAlreadyLogged]
  | cons other logged ih =>
    have hsame : other.pid = entry.pid ∧ other.destIp = entry.destIp ∧
        other.destPort = entry.destPort ∧ other.action = entry.action ↔ entry = other := by
      constructor
      · rintro ⟨hpid, hip, hport, haction⟩
        cases entry
        cases other
        simp_all
      · rintro rfl
        exact ⟨rfl, rfl, rfl, rfl⟩
    rw [isConnectionAlreadyLogged, List.mem_cons, ← ih, ← hsame]
    split_ifs with h <;> simp [h]

theorem keeps_step (pf : Platform) : Keeps 100 (step pf) where
  add logged entry := by
    rw [step, addLogged_eq, Shared.insertLogged, if_pos rfl, Shared.trimLogged,
      List.take_succ_cons]
    split_ifs with hlong
    · rfl
    · rw [List.take_of_length_le (by omega)]
  trim := cleanupLogged_eq pf
  clear := clearLoggedConnections_eq

/-- After any calls the list has the newest 100 of the connections that were added since it was
cleared, the newest first, and these are the connections that count as logged. -/
theorem logged_connections_newest (pf : Platform) (events : List (Event LoggedConnection)) :
    after pf events = (added events).take 100 ∧
      (after pf events).length = min 100 (added events).length ∧
      ∀ entry, isConnectionAlreadyLogged entry (after pf events) = true ↔
        entry ∈ (added events).take 100 := by
  have hafter : after pf events = (added events).take 100 := (keeps_step pf).foldl_eq events
  refine ⟨hafter, ?_, fun entry => ?_⟩
  · rw [hafter, List.length_take]
  · rw [isConnectionAlreadyLogged_iff, hafter]

end ProxyTun.LoggedConnections
