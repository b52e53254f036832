import BenchConsole.Proofs.Board.Slots
import Mathlib.Data.Sym.Sym2

/-!
# Connections as a graph

A connection is an edge between two nodes, without a direction. The live connections are the edges
that the history of the board comes to (`edgesAfter`): what was connected and neither disconnected
nor cleared, from the start or from where a slot was last loaded. What loading a slot brings back is
said by the history as well (`edgesStored`), so the slots do not appear in it.

Each request that is answered takes the live connections and all slots along with the history
(`EdgesRecorded.yields_handle`). As edges have no direction, the order in which a request names two
nodes does not count, for one request (`SameEnds.handle`) and for a run of them
(`SameEnds.afterAll`). Both come together in `connections_are_edges`.
-/

namespace BenchConsole.Board

variable {α ε : Type} {limits : Limits} {count a b : UInt16} {link other : Link}
  {e : Sym2 UInt16} {slot : UInt8}

/-! ## Edges -/

/-- The edge that a pair of nodes stands for. -/
def Link.edge (link : Link) : Sym2 UInt16 :=
  s(link.low, link.high)

/-- The edges of a set of connections. -/
def Netlist.edges (nets : Netlist) : Set (Sym2 UInt16) :=
  {e | ∃ link ∈ nets.links, link.edge = e}

namespace Link

theorem between_comm (a b : UInt16) : between a b = between b a := by
  unfold between
  split_ifs with hab hba hba
  · rw [UInt16.le_antisymm hab hba]
  · rfl
  · rfl
  · exact absurd ((UInt16.le_total a b).resolve_left hab) hba

theorem edge_between (a b : UInt16) : (between a b).edge = s(a, b) := by
  unfold between
  split
  · rfl
  · exact Sym2.eq_swap

theorem low_le_high_between (a b : UInt16) : (between a b).low ≤ (between a b).high := by
  unfold between
  split
  · next h => exact h
  · next h => exact (UInt16.le_total a b).resolve_left h

theorem IsSound.low_le_high (h : link.IsSound count) : link.low ≤ link.high :=
  UInt16.le_iff_toNat_le.mpr (Nat.le_of_lt h.ascending)

theorem eq_of_edge_eq (h : link.low ≤ link.high) (h' : other.low ≤ other.high)
    (hedge : link.edge = other.edge) : link = other := by
  obtain ⟨low, high⟩ := link
  obtain ⟨low', high'⟩ := other
  rcases Sym2.eq_iff.mp hedge with ⟨hlow, hhigh⟩ | ⟨hlow, hhigh⟩
  · exact congrArg₂ mk hlow hhigh
  · -- Crosswise the order leaves a node and itself only.
    obtain rfl : low = high' := hlow
    obtain rfl : high = low' := hhigh
    have hends : low = high := UInt16.le_antisymm h h'
    rw [hends]

theorem ne_of_before (h : link.before other) : link ≠ other := by
  rintro rfl
  rw [before_iff] at h
  omega

end Link

namespace Netlist

variable {nets : Netlist}

theorem mem_edges : e ∈ nets.edges ↔ ∃ link ∈ nets.links, link.edge = e :=
  Iff.rfl

theorem edges_empty : ({} : Netlist).edges = ∅ :=
  Set.eq_empty_iff_forall_notMem.mpr nofun

theorem edges_insert (nets : Netlist) (link : Link) :
    (nets.insert link).edges = Insert.insert link.edge nets.edges := by
  ext e
  simp only [mem_edges, Set.mem_insert_iff, insert, mem_insertSorted, or_and_right, exists_or,
    exists_eq_left]
  exact or_congr_left eq_comm

/-- Each connection is there once, so nothing is left of an edge when its connection is taken away.
The pair to take away need not be a connection: a node may be disconnected from itself. -/
theorem IsSound.edges_erase (h : nets.IsSound count) (hlink : link.low ≤ link.high) :
    (nets.erase link).edges = nets.edges \ {link.edge} := by
  have hnodup : nets.links.Nodup := h.ascending.imp Link.ne_of_before
  ext e
  simp only [mem_edges, Set.mem_sdiff, Set.mem_singleton_iff, Netlist.erase, hnodup.mem_erase_iff]
  constructor
  · rintro ⟨other, ⟨hne, hother⟩, rfl⟩
    have hle := (h.links other hother).low_le_high
    exact ⟨⟨other, hother, rfl⟩, fun hedge => hne (Link.eq_of_edge_eq hle hlink hedge)⟩
  · rintro ⟨⟨other, hother, rfl⟩, hne⟩
    exact ⟨other, ⟨fun heq => hne (congrArg Link.edge heq), hother⟩, rfl⟩

theorem IsSound.contains_between (h : nets.IsSound count) :
    nets.contains (.between a b) ↔ s(a, b) ∈ nets.edges := by
  rw [contains, List.contains_iff_mem, mem_edges]
  constructor
  · intro hmem
    exact ⟨_, hmem, Link.edge_between a b⟩
  · rintro ⟨link, hlink, hedge⟩
    have heq : link = .between a b := Link.eq_of_edge_eq (h.links link hlink).low_le_high
      (Link.low_le_high_between a b) (hedge.trans (Link.edge_between a b).symm)
    rwa [heq] at hlink

/-- An edge joins two different nodes that there are. -/
theorem IsSound.of_mem_edges (h : nets.IsSound limits.nodeCount) (hmem : s(a, b) ∈ nets.edges) :
    requireNode limits a = .ok () ∧ requireNode limits b = .ok () ∧ a ≠ b := by
  obtain ⟨⟨low, high⟩, hlink, hedge⟩ := mem_edges.mp hmem
  obtain ⟨hlow, hascending, hhigh⟩ := h.links _ hlink
  rw [requireNode_eq_ok_iff, requireNode_eq_ok_iff, ne_eq, ← UInt16.toNat_inj]
  dsimp only at hlow hascending hhigh
  rcases Sym2.eq_iff.mp hedge with ⟨ha, hb⟩ | ⟨hb, ha⟩
  · obtain rfl : low = a := ha
    obtain rfl : high = b := hb
    omega
  · obtain rfl : low = b := hb
    obtain rfl : high = a := ha
    omega

end Netlist

/-! ## Edges by history -/

mutual

/-- The edges after a history, newest request first: those of the start, or of the slot that was
loaded last, and what was connected, disconnected and cleared since. -/
def edgesAfter (start : Nets) : List Request → Set (Sym2 UInt16)
  | [] => start.live.edges
  | .nets (.connect a b _) :: past => insert s(a, b) (edgesAfter start past)
  | .nets (.disconnect a b _) :: past => edgesAfter start past \ {s(a, b)}
  | .nets (.clear _) :: _ => ∅
  | .nets (.loadSlot slot) :: past => edgesStored start slot past
  | _ :: past => edgesAfter start past

/-- The edges that a slot holds after a history: those there were when it was saved last, none if it
was cleared since. -/
def edgesStored (start : Nets) (slot : UInt8) : List Request → Set (Sym2 UInt16)
  | [] => (start.stored slot).edges
  | .nets (.saveSlot other) :: past =>
    if other = slot then edgesAfter start past else edgesStored start slot past
  | .nets (.clearSlot other) :: past =>
    if other = slot then ∅ else edgesStored start slot past
  | _ :: past => edgesStored start slot past

end

/-- The history accounts for the live connections and for all slots. -/
structure EdgesRecorded (start : Nets) (past : List Request) (nets : Nets) : Prop where
  live : nets.live.edges = edgesAfter start past
  stored : ∀ slot, (nets.stored slot).edges = edgesStored start slot past

variable {start nets : Nets} {past requests swapped : List Request} {board : Board}
  {request first second : Request}

namespace EdgesRecorded

theorem refl (start : Nets) : EdgesRecorded start [] start :=
  ⟨rfl, fun _ => rfl⟩

theorem of_peripheral_ne (h : EdgesRecorded start past nets) (hp : request.peripheral ≠ .nets) :
    EdgesRecorded start (request :: past) nets := by
  cases request with
  | nets r => exact absurd rfl hp
  | _ => exact ⟨h.live, h.stored⟩

theorem edges_stored_store (h : EdgesRecorded start past nets) (hs : slot.toNat < nets.slots.size)
    {content : Option Netlist} {edges : Set (Sym2 UInt16)}
    (hcontent : (content.getD {}).edges = edges) (other : UInt8) :
    ((nets.store slot content).stored other).edges =
      if slot = other then edges else edgesStored start other past := by
  split
  · next heq => rw [← heq, Nets.stored_store_self hs, hcontent]
  · next hne => rw [Nets.stored_store_of_ne hne, h.stored]

theorem yields_handle (h : EdgesRecorded start past nets) (hnets : nets.IsSound limits)
    (r : Nets.Request) : Yields (EdgesRecorded start (.nets r :: past)) (nets.handle limits r) := by
  have hplace {slot : UInt8} (hi : requireIndex "slot" slot limits.slots = .ok ()) :
      slot.toNat < nets.slots.size := hnets.size ▸ requireIndex_eq_ok_iff.mp hi
  cases r with
  | connect a b persist =>
    refine .bind fun _ _ => .bind fun _ _ => .ite (fun _ => .error _) fun _ => .ok _ ⟨?_, h.stored⟩
    rw [edgesAfter, ← h.live, ← Link.edge_between]
    exact nets.live.edges_insert _
  | disconnect a b persist =>
    refine .bind fun _ _ => .bind fun _ _ => .ok _ ⟨?_, h.stored⟩
    rw [edgesAfter, ← h.live, ← Link.edge_between]
    exact hnets.live.edges_erase (Link.low_le_high_between a b)
  | clear persist => exact .ok _ ⟨Netlist.edges_empty, h.stored⟩
  | connected a b => exact .bind fun _ _ => .bind fun _ _ => .ok _ ⟨h.live, h.stored⟩
  | list | currentSlot => exact .ok _ ⟨h.live, h.stored⟩
  | loadSlot slot => exact .bind fun _ _ => .ok _ ⟨h.stored slot, h.stored⟩
  | saveSlot slot =>
    exact .bind fun _ hi => .ok _ ⟨h.live, h.edges_stored_store (hplace hi) h.live⟩
  | clearSlot slot =>
    exact .bind fun _ hi => .ok _ ⟨h.live, h.edges_stored_store (hplace hi) Netlist.edges_empty⟩

/-- The live connections and the slots after a run are those of its history. -/
theorem afterAll (h : board.IsSound) (requests : List Request) :
    EdgesRecorded board.nets (board.accepted requests).reverse (board.afterAll requests).nets := by
  refine part_history_induction (p := .nets) (P := EdgesRecorded board.nets) h (refl _)
    ?_ ?_ requests
  · intro past request nets hp hpast
    exact hpast.of_peripheral_ne hp
  · intro past before request hbefore _ hp hpast
    cases request with
    | nets r =>
      rw [Board.handle]
      exact (hpast.yields_handle hbefore.nets r).refusing.replied fun _ hnets => hnets
    | _ => cases hp

end EdgesRecorded

/-! ## Requests that name their nodes in the other order -/

/-- The same request, or a request with its two nodes in the other order. -/
inductive SameEnds : Request → Request → Prop
  | refl (request : Request) : SameEnds request request
  | connect (a b : UInt16) (persist : Bool) :
    SameEnds (.nets (.connect a b persist)) (.nets (.connect b a persist))
  | disconnect (a b : UInt16) (persist : Bool) :
    SameEnds (.nets (.disconnect a b persist)) (.nets (.disconnect b a persist))
  | connected (a b : UInt16) : SameEnds (.nets (.connected a b)) (.nets (.connected b a))

/-- Outcomes that are equal, but for what is told about failures. -/
def SameSuccess (x y : Except ε α) : Prop :=
  ∀ a, x = .ok a ↔ y = .ok a

namespace SameSuccess

variable {x y : Except ε α}

theorem refl (x : Except ε α) : SameSuccess x x :=
  fun _ => Iff.rfl

theorem of_error {e e' : ε} : SameSuccess (.error e : Except ε α) (.error e') :=
  fun _ => iff_of_false nofun nofun

theorem ite {p q : Prop} [Decidable p] [Decidable q] {x' y' : Except ε α} (hpq : p ↔ q)
    (h : SameSuccess x y) (h' : SameSuccess x' y') :
    SameSuccess (if p then x else x') (if q then y else y') := by
  by_cases hp : p
  · rwa [if_pos hp, if_pos (hpq.mp hp)]
  · rwa [if_neg hp, if_neg (mt hpq.mpr hp)]

/-- Two checks may be made in any order. -/
theorem bind_comm {first second : Except ε Unit} (h : SameSuccess x y) :
    SameSuccess (first >>= fun _ => second >>= fun _ => x)
      (second >>= fun _ => first >>= fun _ => y) := by
  cases first with
  | ok =>
    cases second with
    | ok => exact h
    | error e => exact of_error
  | error e =>
    -- If both fail, each order tells another failure.
    cases second with
    | ok => exact of_error
    | error e' => exact of_error

theorem eq_or_error (h : SameSuccess x y) :
    x = y ∨ ∃ e e', x = .error e ∧ y = .error e' := by
  cases x with
  | ok a => exact .inl ((h a).mp rfl).symm
  | error e =>
    cases y with
    | ok a => exact nomatch (h a).mpr rfl
    | error e' => exact .inr ⟨e, e', rfl, rfl⟩

theorem mapError (h : SameSuccess x y) (f : ε → Fault) :
    SameSuccess (x.mapError f) (y.mapError f) := by
  rcases h.eq_or_error with rfl | ⟨e, e', rfl, rfl⟩
  · exact refl _
  · exact of_error

theorem refusing {x y : Except Fault (Reply × α)} (h : SameSuccess x y) :
    SameSuccess (Board.refusing x) (Board.refusing y) := by
  rcases h.eq_or_error with rfl | ⟨fault, fault', rfl, rfl⟩
  · exact refl _
  · exact of_error

theorem replied {x y : Except Stop (Reply × α)} (h : SameSuccess x y) (put : α → Board) :
    SameSuccess (Board.replied put x) (Board.replied put y) := by
  rcases h.eq_or_error with rfl | ⟨stop, stop', rfl, rfl⟩
  · exact refl _
  · exact of_error

theorem settle {x y : Except ε (Reply × α)} (h : SameSuccess x y) (state : α) :
    SameSuccess (Board.settle state x).1 (Board.settle state y).1 ∧
      (Board.settle state x).2 = (Board.settle state y).2 := by
  rcases h.eq_or_error with rfl | ⟨e, e', rfl, rfl⟩
  · exact ⟨refl _, rfl⟩
  · exact ⟨of_error, rfl⟩

end SameSuccess

/-- Naming two nodes in the other order changes neither an answer nor the board. Of two nodes that
the board lacks, it may be the other one that is reported. -/
theorem SameEnds.handle (h : SameEnds first second) (board : Board) :
    SameSuccess (simulated.handle first board).1 (simulated.handle second board).1 ∧
      (simulated.handle first board).2 = (simulated.handle second board).2 := by
  rw [simulated_handle, simulated_handle]
  suffices hsame : SameSuccess (board.handle first) (board.handle second) from
    (hsame.settle board).imp_left (·.mapError Stop.fault)
  cases h with
  | refl => exact .refl _
  | connect a b persist =>
    rw [Board.handle, Board.handle]
    refine .replied (.refusing (.bind_comm (.ite (p := a = b) (q := b = a) eq_comm .of_error ?_))) _
    rw [Link.between_comm]
    exact .refl _
  | disconnect | connected =>
    rw [Board.handle, Board.handle]
    refine .replied (.refusing (.bind_comm ?_)) _
    rw [Link.between_comm]
    exact .refl _

theorem SameEnds.afterAll (h : List.Forall₂ SameEnds requests swapped) (board : Board) :
    board.afterAll requests = board.afterAll swapped ∧
      List.Forall₂ (fun x y => SameSuccess x.2 y.2) (board.exchanges requests)
        (board.exchanges swapped) := by
  induction h generalizing board with
  | nil => exact ⟨rfl, .nil⟩
  | cons hfirst hrest ih =>
    obtain ⟨hanswer, hlater⟩ := hfirst.handle board
    obtain ⟨hafter, hanswers⟩ := ih (simulated.handle _ board).2
    rw [afterAll_cons, afterAll_cons, ← hlater]
    refine ⟨hafter, .cons hanswer ?_⟩
    rw [← hlater]
    exact hanswers

/-! ## The graph -/

theorem SetUp.nets_eq (h : board.SetUp) : board.nets = Nets.new board.limits := by
  induction h with
  | new limits => rfl
  | withReading channel volts _ ih => exact ih
  | withCurrent sensor milliamps _ ih => exact ih

theorem Nets.stored_new (limits : Limits) (slot : UInt8) : (Nets.new limits).stored slot = {} := by
  rw [stored, new, Array.getElem?_replicate]
  split <;> rfl

theorem IsSound.handle_connected (h : board.IsSound) (a b : UInt16) :
    (simulated.handle (.nets (.connected a b)) board).1 = .ok (.flag true) ↔
      s(a, b) ∈ board.nets.live.edges := by
  have hends := h.nets.live.of_mem_edges (a := a) (b := b)
  rw [simulated_handle, Board.handle, Nets.handle]
  cases ha : requireNode board.limits a with
  | error fault =>
    refine iff_of_false (by rintro ⟨⟩) fun hmem => ?_
    cases ha.symm.trans (hends hmem).1
  | ok =>
    cases hb : requireNode board.limits b with
    | error fault =>
      refine iff_of_false (by rintro ⟨⟩) fun hmem => ?_
      cases hb.symm.trans (hends hmem).2.1
    | ok =>
      rw [← h.nets.live.contains_between]
      change Except.ok (Reply.flag _) = _ ↔ _
      rw [Except.ok.injEq, Reply.flag.injEq]

/-- After any requests, two nodes are connected if and only if they are an edge by the history. No
node is connected to itself. A board that was set up starts without any edges, live or in its slots.
Requests that name their nodes in the other order get the same answers, unless they fail either way,
and lead to the same board. -/
theorem connections_are_edges (h : board.IsSound) (requests : List Request) :
    let later := board.afterAll requests
    (∀ a b, (simulated.handle (.nets (.connected a b)) later).1 = .ok (.flag true) ↔
      s(a, b) ∈ edgesAfter board.nets (board.accepted requests).reverse) ∧
    (∀ a, (simulated.handle (.nets (.connected a a)) later).1 ≠ .ok (.flag true)) ∧
    (board.SetUp → board.nets.live.edges = ∅ ∧ ∀ slot, (board.nets.stored slot).edges = ∅) ∧
    ∀ swapped, List.Forall₂ SameEnds requests swapped →
      board.afterAll swapped = later ∧
      List.Forall₂ (fun x y => SameSuccess x.2 y.2) (board.exchanges requests)
        (board.exchanges swapped) := by
  intro later
  have hlater : later.IsSound := (h.afterAll requests).1
  have hedges := (EdgesRecorded.afterAll h requests).live
  refine ⟨fun a b => ?_, fun a hloop => ?_, ?_, fun swapped hswapped => ?_⟩
  · rw [hlater.handle_connected, hedges]
  · rw [hlater.handle_connected] at hloop
    exact (hlater.nets.live.of_mem_edges hloop).2.2 rfl
  · intro hsetUp
    rw [hsetUp.nets_eq]
    exact ⟨Netlist.edges_empty, fun slot => by rw [Nets.stored_new, Netlist.edges_empty]⟩
  · obtain ⟨hafter, hanswers⟩ := SameEnds.afterAll hswapped board
    exact ⟨hafter.symm, hanswers⟩

/-- One connection comes back with a slot, another one is made again after it was taken away. -/
theorem connections_are_edges_throughSlot :
    let board := Board.new {}
    let requests : List Request := [.nets (.connect 5 1 false), .nets (.connect 2 3 true),
      .nets (.saveSlot 4), .nets (.disconnect 1 5 true), .nets (.loadSlot 4),
      .nets (.disconnect 3 2 false), .nets (.connect 200 2 true), .nets (.connect 7 7 true)]
    let swapped : List Request := [.nets (.connect 1 5 false), .nets (.connect 2 3 true),
      .nets (.saveSlot 4), .nets (.disconnect 5 1 true), .nets (.loadSlot 4),
      .nets (.disconnect 2 3 false), .nets (.connect 2 200 true), .nets (.connect 7 7 true)]
    (simulated.handle (.nets (.connected 1 5)) (board.afterAll requests)).1 = .ok (.flag true) ∧
      (simulated.handle (.nets (.connected 2 3)) (board.afterAll requests)).1 ≠ .ok (.flag true) ∧
      board.afterAll swapped = board.afterAll requests := by
  intro board requests swapped
  obtain ⟨hconnected, -, -, hswapped⟩ := @connections_are_edges board (isSound_new {}) requests
  have haccepted : board.accepted requests = [.nets (.connect 5 1 false), .nets (.connect 2 3 true),
      .nets (.saveSlot 4), .nets (.disconnect 1 5 true), .nets (.loadSlot 4),
      .nets (.disconnect 3 2 false)] := by decide
  rw [haccepted] at hconnected
  refine ⟨(hconnected 1 5).mpr ?_, mt (hconnected 2 3).mp ?_, (hswapped swapped ?_).1⟩
  · simp [edgesAfter, edgesStored]
  · simp [edgesAfter, edgesStored]
  · exact .cons (.connect _ _ _) (.cons (.refl _) (.cons (.refl _) (.cons (.disconnect _ _ _)
      (.cons (.refl _) (.cons (.disconnect _ _ _) (.cons (.connect _ _ _)
      (.cons (.refl _) .nil)))))))

end BenchConsole.Board
