import ProxyTun.Connections.Cleanup
import ProxyTun.Library.Rows

/-!
# The loops over the buckets

The operations on the connection table as the source's loops over chains of nodes, each of them
run to its end before the next begins. The cleanup drops every stale node of every chain.
-/
namespace ProxyTun
open Library

abbrev Buckets := Fin 256 → List ConnectionInfo

namespace Buckets

def empty : Buckets := fun _ => []

/-- The loop that looks for a port and changes the node it finds. -/
def changeFound (srcPort : Port) (f : ConnectionInfo → ConnectionInfo) :
    List ConnectionInfo → Option (List ConnectionInfo)
  | [] => none
  | c :: cs => if c.srcPort = srcPort then some (f c :: cs)
    else (changeFound srcPort f cs).map (c :: ·)

def takeOut (srcPort : Port) : List ConnectionInfo → List ConnectionInfo
  | [] => []
  | c :: cs => if c.srcPort = srcPort then cs else c :: takeOut srcPort cs

/-- The loop of the cleanup over one chain. -/
def dropStale (now : Tick) : List ConnectionInfo → List ConnectionInfo
  | [] => []
  | c :: cs => if Sweep.expired now c then dropStale now cs else c :: dropStale now cs

def addConnection (now : Tick) (srcPort : Port) (srcIp destIp : Ip) (destPort : Port)
    (b : Buckets) : Buckets :=
  let hash := connectionHash srcPort
  match changeFound srcPort (ConnTable.updateEntry .windows now srcIp destIp destPort)
    (b hash) with
  | some chain => Function.update b hash chain
  | none =>
    Function.update b hash (ConnTable.freshEntry now srcPort srcIp destIp destPort :: b hash)

/-- `is_connection_tracked`. -/
def isConnectionTracked (srcPort : Port) (b : Buckets) : Bool :=
  (b (connectionHash srcPort)).any fun c => c.srcPort = srcPort && c.isTracked

/-- `get_connection`, with what it returns. -/
def getConnection (now : Tick) (srcPort : Port) (b : Buckets) : Option (Ip × Port) × Buckets :=
  let hash := connectionHash srcPort
  match (b hash).find? fun c => c.srcPort = srcPort with
  | none => (none, b)
  | some conn => (some conn.remote, match changeFound srcPort
      (fun c => { c with lastActivity := now }) (b hash) with
    | some chain => Function.update b hash chain
    | none => b)

def removeConnection (srcPort : Port) (b : Buckets) : Buckets :=
  let hash := connectionHash srcPort
  Function.update b hash (takeOut srcPort (b hash))

def cleanupStaleConnections (now : Tick) (b : Buckets) : Buckets :=
  (List.finRange 256).foldl (fun b i => Function.update b i (dropStale now (b i))) b

theorem dropStale_eq (now : Tick) (chain : List ConnectionInfo) :
    dropStale now chain = chain.filter fun c => !Sweep.expired now c := by
  induction chain with
  | nil => rfl
  | cons c cs ih => cases h : Sweep.expired now c <;> simp [dropStale, h, ih]

theorem takeOut_eq (srcPort : Port) (chain : List ConnectionInfo) :
    takeOut srcPort chain = ChainedTable.unlinkChain ConnectionInfo.srcPort srcPort chain := by
  induction chain with
  | nil => rfl
  | cons c cs ih =>
    by_cases h : c.srcPort = srcPort
    · simp [takeOut, ChainedTable.unlinkChain, h]
    · simpa [takeOut, ChainedTable.unlinkChain, h] using ih

theorem changeFound_eq {srcPort : Port} {f : ConnectionInfo → ConnectionInfo}
    {chain : List ConnectionInfo} (hdistinct : (chain.map ConnectionInfo.srcPort).Nodup) :
    changeFound srcPort f chain =
      (ChainedTable.search ConnectionInfo.srcPort srcPort chain).map fun _ =>
        ChainedTable.adjustChain ConnectionInfo.srcPort srcPort f chain := by
  induction chain with
  | nil => rfl
  | cons c cs ih =>
    obtain ⟨hnot, hrest⟩ := List.nodup_cons.mp hdistinct
    by_cases h : c.srcPort = srcPort
    · have hothers : ChainedTable.adjustChain ConnectionInfo.srcPort srcPort f cs = cs :=
        Rows.map_of_name_not_mem (h ▸ hnot) f
      rw [changeFound, if_pos h, ChainedTable.search, List.find?_cons_of_pos (by simpa using h),
        Option.map_some, ChainedTable.adjustChain, List.map_cons, if_pos h]
      rw [ChainedTable.adjustChain] at hothers
      rw [hothers]
    · rw [changeFound, if_neg h, ih hrest]
      simp [ChainedTable.search, ChainedTable.adjustChain, h, Function.comp_def]

/-- A loop over distinct buckets that changes each of them by itself. -/
theorem eachBucket_eq (f : List ConnectionInfo → List ConnectionInfo) {indices : List (Fin 256)}
    (hindices : indices.Nodup) (b : Buckets) :
    indices.foldl (fun b i => Function.update b i (f (b i))) b =
      fun i => if i ∈ indices then f (b i) else b i := by
  induction indices generalizing b with
  | nil => simp
  | cons j rest ih =>
    obtain ⟨hj, hrest⟩ := List.nodup_cons.mp hindices
    rw [List.foldl_cons, ih hrest]
    funext i
    by_cases hij : i = j
    · subst hij
      simp [hj]
    · simp [hij]

theorem cleanupStaleConnections_eq (now : Tick) (b : Buckets) :
    cleanupStaleConnections now b = fun i => dropStale now (b i) := by
  rw [cleanupStaleConnections, eachBucket_eq _ (List.nodup_finRange 256)]
  simp

def Chains (b : Buckets) (t : ConnTable) : Prop := b = t.chain

variable {b : Buckets} {t : ConnTable}

theorem chains_empty : Chains empty .empty := rfl

theorem Chains.addConnection (h : Chains b t) (now : Tick) (srcPort : Port) (srcIp destIp : Ip)
    (destPort : Port) :
    Chains (b.addConnection now srcPort srcIp destIp destPort)
      (t.addConnection .windows now true srcPort srcIp destIp destPort) := by
  subst h
  unfold Chains Buckets.addConnection
  dsimp only
  have hsearch : ChainedTable.search ConnectionInfo.srcPort srcPort
      (t.chain (connectionHash srcPort)) = t.entry srcPort := rfl
  rw [changeFound_eq (t.distinct _), hsearch]
  cases hfound : t.entry srcPort with
  | some c =>
    rw [ConnTable.addConnection_of_found .windows now hfound]
    rfl
  | none =>
    rw [ConnTable.addConnection_of_new .windows now hfound]
    rfl

theorem Chains.getConnection (h : Chains b t) (now : Tick) (srcPort : Port) :
    (b.getConnection now srcPort).1 = t.destination srcPort ∧
      Chains (b.getConnection now srcPort).2
        (if (t.destination srcPort).isSome then t.touch now srcPort else t) := by
  subst h
  unfold Chains Buckets.getConnection
  dsimp only
  rw [changeFound_eq (t.distinct _), ConnTable.destination]
  have hentry : ((t.chain (connectionHash srcPort)).find? fun c => c.srcPort = srcPort) =
      t.entry srcPort := rfl
  have hsearch : ChainedTable.search ConnectionInfo.srcPort srcPort
      (t.chain (connectionHash srcPort)) = t.entry srcPort := rfl
  rw [hentry, hsearch]
  cases t.entry srcPort with
  | none => exact ⟨rfl, rfl⟩
  | some c => exact ⟨rfl, rfl⟩

theorem Chains.removeConnection (h : Chains b t) (srcPort : Port) :
    Chains (b.removeConnection srcPort) (t.removeConnection srcPort) := by
  subst h
  rw [Chains, Buckets.removeConnection, takeOut_eq]
  rfl

/-- A port stands once in its chain, so that the first node with it is the only one. -/
theorem Chains.isConnectionTracked (h : Chains b t) (srcPort : Port) :
    b.isConnectionTracked srcPort = t.isConnectionTracked srcPort := by
  subst h
  rw [Bool.eq_iff_iff, Buckets.isConnectionTracked, ConnTable.isConnectionTracked, List.any_eq_true,
    Option.isSome_iff_exists]
  simp only [Option.filter_eq_some_iff, Bool.and_eq_true, decide_eq_true_eq]
  constructor
  · rintro ⟨c, hc, rfl, htracked⟩
    exact ⟨c, t.entry_of_mem hc, htracked⟩
  · rintro ⟨c, hc, htracked⟩
    exact ⟨c, ChainedTable.entry_mem hc, ChainedTable.entry_key hc, htracked⟩

theorem Chains.cleanup (h : Chains b t) (now : Tick) :
    Chains (b.cleanupStaleConnections now) (t.filter fun c => !Sweep.expired now c) := by
  subst h
  rw [Chains, cleanupStaleConnections_eq]
  funext i
  exact dropStale_eq now (t.chain i)

end Buckets
end ProxyTun
