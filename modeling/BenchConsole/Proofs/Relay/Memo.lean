import BenchConsole.Relay.Memo
import Mathlib.Data.List.DropRight
import Mathlib.Data.List.Nodup
import Std.Data.HashMap.Lemmas

/-!
# What a memo remembers

A text that the memo does not know is read, which counts as a miss, and takes the last place among
the texts; when there is no room, the first one leaves. A text that it knows changes nothing but the
other counter (`Memo.read_cases`). So the memo knows the newest of the texts that it missed, as many
as there is room for, each once (`Memo.KeepsLatest`).

An `IndexedMemo` keeps the outcomes by text and the texts in order, in two parts that have to be
changed together: of a text that stood in the order twice, the outcome would be erased while the
text is still there. They hold what a memo holds (`IndexedMemo.InStep`), since a text is only added
while it is in neither part.
-/

namespace BenchConsole.Relay

variable {α : Type} {text : String} {missed : List String}
  {entries : List (String × Except Failure Command)}

/-! ## Making room -/

theorem sublist_of_room (bound : Nat) (entries : List α) :
    (if bound ≤ entries.length then entries.tail else entries).Sublist entries := by
  split
  · exact List.tail_sublist _
  · exact .refl _

/-- A list that drops its first entry to make room for another one stays within its bound. -/
theorem length_append_le {entries : List α} {bound : Nat} (hpos : 0 < bound)
    (hlength : entries.length ≤ bound) (a : α) :
    ((if bound ≤ entries.length then entries.tail else entries) ++ [a]).length ≤ bound := by
  rw [List.length_append, List.length_singleton]
  split
  · rw [List.length_tail]
    omega
  · omega

/-- If it holds the newest entries, it still does so with another one. -/
theorem rtake_append {bound : Nat} (hpos : 0 < bound) (entries : List α) (a : α) :
    (if bound ≤ (entries.rtake bound).length then (entries.rtake bound).tail
      else entries.rtake bound) ++ [a] = (entries ++ [a]).rtake bound := by
  obtain ⟨n, rfl⟩ := Nat.exists_eq_add_of_lt hpos
  rw [List.rtake_concat_succ]
  congr 1
  simp only [List.rtake, List.length_drop]
  split
  · rw [List.tail_drop]
    congr 1
    omega
  · congr 1
    omega

/-! ## Reading a text -/

theorem lookup_eq_none_iff_not_mem : entries.lookup text = none ↔ text ∉ entries.map Prod.fst := by
  rw [List.lookup_eq_none_iff, List.mem_map]
  constructor
  · rintro h ⟨entry, hentry, rfl⟩
    simpa using h entry hentry
  · intro h entry hentry
    rw [bne_iff_ne]
    rintro rfl
    exact h ⟨entry, hentry, rfl⟩

namespace Memo

variable {memo : Memo}

theorem find?_eq_none_iff : memo.find? text = none ↔ text ∉ memo.texts :=
  lookup_eq_none_iff_not_mem

/-- A text that the memo knows is a hit and changes nothing else, any other one is a miss. -/
theorem read_cases (memo : Memo) (text : String) :
    (text ∈ memo.texts ∧ (memo.read text).2 = { memo with hits := memo.hits + 1 }) ∨
    (text ∉ memo.texts ∧ (memo.read text).2 =
      { memo with
        entries := memo.remember text (Command.parse text)
        misses := memo.misses + 1 }) := by
  unfold read
  cases hfind : memo.find? text with
  | none => exact .inr ⟨find?_eq_none_iff.mp hfind, rfl⟩
  | some parsed =>
    refine .inl ⟨?_, rfl⟩
    by_contra hnot
    rw [find?_eq_none_iff.mpr hnot] at hfind
    cases hfind

theorem hits_add_misses_read (memo : Memo) (text : String) :
    (memo.read text).2.hits + (memo.read text).2.misses = memo.hits + memo.misses + 1 := by
  rcases memo.read_cases text with ⟨-, he⟩ | ⟨-, he⟩
  · rw [he]
    exact Nat.add_right_comm _ _ _
  · rw [he]
    rfl

theorem capacity_read (memo : Memo) (text : String) :
    (memo.read text).2.capacity = memo.capacity := by
  rcases memo.read_cases text with ⟨-, he⟩ | ⟨-, he⟩ <;> rw [he]

theorem texts_remember (memo : Memo) (text : String) (parsed : Except Failure Command) :
    (memo.remember text parsed).map Prod.fst =
      if memo.capacity = 0 then memo.texts
      else (if memo.capacity ≤ memo.texts.length then memo.texts.tail else memo.texts) ++
        [text] := by
  unfold remember
  split
  · rfl
  · rw [List.map_append, List.map_singleton, texts, List.length_map, size, ← List.map_tail]
    split <;> rfl

theorem size_read_le (hm : memo.size ≤ memo.capacity) (text : String) :
    (memo.read text).2.size ≤ memo.capacity := by
  rcases memo.read_cases text with ⟨-, he⟩ | ⟨-, he⟩
  · rw [he]
    exact hm
  · rw [he]
    change (memo.remember text (Command.parse text)).length ≤ memo.capacity
    unfold remember
    split
    · exact hm
    · next hne => exact length_append_le (Nat.pos_of_ne_zero hne) hm _

/-! ## Runs -/

/-- The memo after some texts were read. -/
def afterAll (memo : Memo) (texts : List String) : Memo :=
  texts.foldl (fun memo text => (memo.read text).2) memo

/-- The texts that count as misses when some texts are read. -/
def missedTexts (memo : Memo) : List String → List String
  | [] => []
  | text :: texts =>
    let later := (memo.read text).2
    (if memo.misses < later.misses then [text] else []) ++ later.missedTexts texts

/-- The memo knows the newest of the texts that it missed, each once. -/
structure KeepsLatest (memo : Memo) (missed : List String) : Prop where
  texts_eq : memo.texts = missed.rtake memo.capacity
  nodup : memo.texts.Nodup
  misses_eq : memo.misses = missed.length

namespace KeepsLatest

theorem size_le (h : memo.KeepsLatest missed) : memo.size ≤ memo.capacity := by
  have hsize : memo.size = (missed.rtake memo.capacity).length := by
    rw [← h.texts_eq, texts, List.length_map, size]
  rw [hsize, List.rtake, List.length_drop]
  omega

theorem new (capacity : Nat) : KeepsLatest { capacity } [] where
  texts_eq := (List.rtake_nil capacity).symm
  nodup := .nil
  misses_eq := rfl

/-- A text that is missed takes the last place. -/
theorem remember (h : memo.KeepsLatest missed) (hnew : text ∉ memo.texts)
    (parsed : Except Failure Command) :
    KeepsLatest
      { memo with
        entries := memo.remember text parsed
        misses := memo.misses + 1 } (missed ++ [text]) := by
  have htexts := memo.texts_remember text parsed
  refine ⟨htexts.trans ?_, ?_, ?_⟩
  · rw [h.texts_eq]
    split
    · next hzero => rw [hzero, List.rtake_zero, List.rtake_zero]
    · next hne => exact rtake_append (Nat.pos_of_ne_zero hne) missed text
  · change ((memo.remember text parsed).map Prod.fst).Nodup
    rw [htexts]
    split
    · exact h.nodup
    · have hkept := sublist_of_room memo.capacity memo.texts
      exact (hkept.nodup h.nodup).append (List.nodup_singleton text)
        (by simpa using fun hmem => hnew (hkept.subset hmem))
  · rw [List.length_append, ← h.misses_eq]
    rfl

theorem read (h : memo.KeepsLatest missed) (text : String) :
    (memo.read text).2.KeepsLatest
      (missed ++ if memo.misses < (memo.read text).2.misses then [text] else []) := by
  rcases memo.read_cases text with ⟨-, he⟩ | ⟨hnew, he⟩
  · rw [he, if_neg (Nat.lt_irrefl _), List.append_nil]
    exact ⟨h.texts_eq, h.nodup, h.misses_eq⟩
  · rw [he, if_pos (Nat.lt_succ_self _)]
    exact h.remember hnew _

theorem afterAll (h : memo.KeepsLatest missed) (texts : List String) :
    (memo.afterAll texts).KeepsLatest (missed ++ memo.missedTexts texts) := by
  induction texts generalizing memo missed with
  | nil => rwa [missedTexts, List.append_nil]
  | cons text texts ih =>
    rw [missedTexts, ← List.append_assoc]
    exact ih (h.read text)

end KeepsLatest

theorem capacity_afterAll (memo : Memo) (texts : List String) :
    (memo.afterAll texts).capacity = memo.capacity := by
  induction texts generalizing memo with
  | nil => rfl
  | cons text texts ih => exact (ih _).trans (memo.capacity_read text)

theorem hits_add_misses_afterAll (memo : Memo) (texts : List String) :
    (memo.afterAll texts).hits + (memo.afterAll texts).misses =
      memo.hits + memo.misses + texts.length := by
  induction texts generalizing memo with
  | nil => rfl
  | cons text texts ih =>
    have hread := memo.hits_add_misses_read text
    have hrest := ih (memo.read text).2
    rw [List.length_cons]
    change ((memo.read text).2.afterAll texts).hits + ((memo.read text).2.afterAll texts).misses = _
    omega

end Memo

/-! ## The memory in two parts -/

/-- Outcomes of reading commands by text, and the texts in the order in which they came. -/
structure TextIndex where
  outcomes : Std.HashMap String (Except Failure Command) := ∅
  /-- Texts, oldest first. -/
  order : List String := []

namespace TextIndex

variable {store : TextIndex}

/-- Drops the oldest text and its outcome if there is no room for another one. -/
def makeRoom (capacity : Nat) (store : TextIndex) : TextIndex :=
  if capacity ≤ store.order.length then
    match store.order with
    | [] => store
    | oldest :: order => ⟨store.outcomes.erase oldest, order⟩
  else store

def add (store : TextIndex) (text : String) (parsed : Except Failure Command) : TextIndex :=
  ⟨store.outcomes.insert text parsed, store.order ++ [text]⟩

/-- Both parts hold what a list of entries holds. -/
structure Holds (store : TextIndex) (entries : List (String × Except Failure Command)) : Prop where
  order_eq : store.order = entries.map Prod.fst
  getElem?_eq : ∀ text, store.outcomes[text]? = entries.lookup text

namespace Holds

/-- The oldest text stands in the order only once, so nothing else is lost with its outcome. -/
theorem makeRoom (h : store.Holds entries) (hn : (entries.map Prod.fst).Nodup) (capacity : Nat) :
    (store.makeRoom capacity).Holds
      (if capacity ≤ entries.length then entries.tail else entries) := by
  have hlength : store.order.length = entries.length := by rw [h.order_eq, List.length_map]
  unfold TextIndex.makeRoom
  rw [hlength]
  split
  · cases entries with
    | nil =>
      rw [h.order_eq]
      exact h
    | cons entry entries =>
      rw [h.order_eq]
      refine ⟨rfl, fun text => ?_⟩
      have hfresh : entries.lookup entry.1 = none :=
        lookup_eq_none_iff_not_mem.mpr (List.nodup_cons.mp hn).1
      change (store.outcomes.erase entry.1)[text]? = entries.lookup text
      rw [Std.HashMap.getElem?_erase, h.getElem?_eq, List.lookup_cons]
      by_cases heq : text = entry.1
      · rw [heq, beq_self_eq_true, if_pos rfl, hfresh]
      · rw [beq_false_of_ne heq, beq_false_of_ne (Ne.symm heq)]
        rfl
  · exact h

/-- A text that is in neither part goes to the end of the one and into the other. -/
theorem add (h : store.Holds entries) (hnew : text ∉ entries.map Prod.fst)
    (parsed : Except Failure Command) : (store.add text parsed).Holds (entries ++ [(text, parsed)])
    where
  order_eq := by
    rw [List.map_append, ← h.order_eq]
    rfl
  getElem?_eq other := by
    change (store.outcomes.insert text parsed)[other]? = _
    rw [Std.HashMap.getElem?_insert, h.getElem?_eq, List.lookup_append, List.lookup_cons]
    by_cases heq : other = text
    · rw [heq, beq_self_eq_true, if_pos rfl, lookup_eq_none_iff_not_mem.mpr hnew]
      rfl
    · rw [beq_false_of_ne heq, beq_false_of_ne (Ne.symm heq)]
      exact Option.or_none.symm

/-- The two parts hold the same texts. -/
theorem keys_perm (h : store.Holds entries) (hn : (entries.map Prod.fst).Nodup) :
    store.outcomes.keys.Perm store.order := by
  rw [h.order_eq, List.perm_ext_iff_of_nodup Std.HashMap.nodup_keys hn]
  intro text
  rw [Std.HashMap.mem_keys, Std.HashMap.mem_iff_isSome_getElem?, h.getElem?_eq,
    Option.isSome_iff_ne_none, ne_eq, lookup_eq_none_iff_not_mem, not_not]

end Holds

end TextIndex

/-- A memo that keeps its entries in two parts. -/
structure IndexedMemo where
  capacity : Nat
  store : TextIndex := {}
  hits : Nat := 0
  misses : Nat := 0

namespace IndexedMemo

variable {memo : Memo} {indexed : IndexedMemo}

def read (indexed : IndexedMemo) (text : String) : Except Failure Command × IndexedMemo :=
  match indexed.store.outcomes[text]? with
  | some parsed => (parsed, { indexed with hits := indexed.hits + 1 })
  | none =>
    let parsed := Command.parse text
    let store :=
      if 0 < indexed.capacity then (indexed.store.makeRoom indexed.capacity).add text parsed
      else indexed.store
    (parsed, { indexed with store, misses := indexed.misses + 1 })

def afterAll (indexed : IndexedMemo) (texts : List String) : IndexedMemo :=
  texts.foldl (fun indexed text => (indexed.read text).2) indexed

/-- The two memories hold and have counted the same. -/
structure InStep (indexed : IndexedMemo) (memo : Memo) : Prop where
  capacity_eq : indexed.capacity = memo.capacity
  store : indexed.store.Holds memo.entries
  hits_eq : indexed.hits = memo.hits
  misses_eq : indexed.misses = memo.misses

namespace InStep

theorem new (capacity : Nat) : InStep { capacity } { capacity } where
  capacity_eq := rfl
  store := ⟨rfl, fun _ => Std.HashMap.getElem?_empty⟩
  hits_eq := rfl
  misses_eq := rfl

/-- Both memories read a text with the same outcome and stay in step. -/
theorem read (h : InStep indexed memo) (hn : memo.texts.Nodup) (text : String) :
    (indexed.read text).1 = (memo.read text).1 ∧
      InStep (indexed.read text).2 (memo.read text).2 := by
  unfold IndexedMemo.read Memo.read Memo.find?
  rw [h.store.getElem?_eq text]
  cases hfind : memo.entries.lookup text with
  | some parsed => exact ⟨rfl, h.capacity_eq, h.store, congrArg (· + 1) h.hits_eq, h.misses_eq⟩
  | none =>
    refine ⟨rfl, h.capacity_eq, ?_, h.hits_eq, congrArg (· + 1) h.misses_eq⟩
    have hnew := lookup_eq_none_iff_not_mem.mp hfind
    simp only [Memo.remember, Memo.size, h.capacity_eq]
    by_cases hzero : memo.capacity = 0
    · rw [if_neg (by omega), if_pos hzero]
      exact h.store
    · rw [if_pos (by omega), if_neg hzero]
      have hkept := (sublist_of_room memo.capacity memo.entries).map Prod.fst
      exact (h.store.makeRoom hn _).add (fun hmem => hnew (hkept.subset hmem)) _

theorem afterAll (h : InStep indexed memo) (hm : memo.KeepsLatest missed) (texts : List String) :
    InStep (indexed.afterAll texts) (memo.afterAll texts) := by
  induction texts generalizing indexed memo missed with
  | nil => exact h
  | cons text texts ih => exact ih (h.read hm.nodup text).2 (hm.read text)

end InStep

end IndexedMemo

/-- However many texts a memo may hold and whatever texts it reads, those that it knows are the
newest of its misses, as many as there is room for, oldest first and each once. A text is a hit if
and only if it is one of them, and every text counts as a hit or a miss. With the outcomes and the
order kept in two parts, both parts hold just these texts, and the outcomes and counts are the
same. -/
theorem memo_knows_latest_misses (capacity : Nat) (texts : List String) :
    let memo := ({ capacity } : Memo).afterAll texts
    let indexed := ({ capacity } : IndexedMemo).afterAll texts
    let missed := ({ capacity } : Memo).missedTexts texts
    memo.texts = missed.rtake (min capacity memo.misses) ∧ memo.texts.Nodup ∧
      memo.size ≤ capacity ∧ memo.misses = missed.length ∧
      memo.hits + memo.misses = texts.length ∧
      (∀ text, (memo.read text).2.hits = memo.hits + (if text ∈ memo.texts then 1 else 0) ∧
        (memo.read text).2.misses = memo.misses + (if text ∈ memo.texts then 0 else 1)) ∧
      indexed.store.order = memo.texts ∧ indexed.store.outcomes.keys.Perm indexed.store.order ∧
      indexed.hits = memo.hits ∧ indexed.misses = memo.misses ∧
      ∀ text, (indexed.read text).1 = (memo.read text).1 := by
  intro memo indexed missed
  have hlatest : memo.KeepsLatest missed := (Memo.KeepsLatest.new capacity).afterAll texts
  have hstep : IndexedMemo.InStep indexed memo :=
    (IndexedMemo.InStep.new capacity).afterAll (Memo.KeepsLatest.new capacity) texts
  have hcapacity : memo.capacity = capacity := Memo.capacity_afterAll _ texts
  have hcount : memo.hits + memo.misses = 0 + 0 + texts.length :=
    Memo.hits_add_misses_afterAll _ texts
  refine ⟨?_, hlatest.nodup, ?_, hlatest.misses_eq, by omega, ?_, hstep.store.order_eq,
    hstep.store.keys_perm hlatest.nodup, hstep.hits_eq, hstep.misses_eq,
    fun text => (hstep.read hlatest.nodup text).1⟩
  · rw [hlatest.texts_eq, hcapacity, hlatest.misses_eq]
    simp only [List.rtake]
    congr 1
    omega
  · exact hcapacity ▸ hlatest.size_le
  · intro text
    rcases memo.read_cases text with ⟨hmem, he⟩ | ⟨hnew, he⟩
    · rw [he, if_pos hmem, if_pos hmem]
      exact ⟨rfl, rfl⟩
    · rw [he, if_neg hnew, if_neg hnew]
      exact ⟨rfl, rfl⟩

end BenchConsole.Relay
