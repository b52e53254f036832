import BenchConsole.Proofs.Bench.Answers
import BenchConsole.Proofs.Binding.Fields
import BenchConsole.Proofs.Board.Connections

/-!
# The listing of connections

A board lists its connections as one text, the pairs separated by commas and the two ends of a pair
by a hyphen. `readPairs?` takes such a text apart again, at the separators and nowhere else, and
finds the connections that were listed (`Netlist.readPairs?_text`); a board without connections says
so in words. So the listing tells which nodes are connected (`Netlist.text_injective`).

On the wire it stays a text. The first numeral of a listing ends at a hyphen, which is not what a
numeral with a unit looks like (`not_startsWithNumeral_listing`).
-/

namespace BenchConsole

open Text Number

namespace Board

/-! ## Reading a listing -/

/-- The two numbers on the sides of a hyphen. -/
def readEnds? (part : List Char) : Option (Nat × Nat) :=
  match part.splitOn '-' with
  | [low, high] => (readNat? low).bind fun a => (readNat? high).map fun b => (a, b)
  | _ => none

/-- The pairs of numbers between the commas of a text. -/
def readPairs? (text : String) : Option (List (Nat × Nat)) :=
  (text.toList.splitOn ',').mapM readEnds?

/-- The numbers of the two nodes, the smaller one first. -/
def Link.ends (link : Link) : Nat × Nat :=
  (link.low.toNat, link.high.toNat)

theorem Link.ends_injective : Function.Injective Link.ends := by
  rintro ⟨low, high⟩ ⟨low', high'⟩ h
  obtain ⟨hlow, hhigh⟩ := Prod.mk.inj h
  exact congrArg₂ mk (UInt16.toNat_inj.mp hlow) (UInt16.toNat_inj.mp hhigh)

variable {c : Char} {a b count : UInt16} {nets other : Netlist}

theorem not_mem_toDigits (hc : c.isDigit = false) (n : Nat) : c ∉ Nat.toDigits 10 n :=
  fun h => isDigit_ne (isDigit_toDigits n c h) hc rfl

theorem Link.readEnds?_text (link : Link) : readEnds? link.text.toList = some link.ends := by
  have hsplit : link.text.toList.splitOn '-' =
      [Nat.toDigits 10 link.low.toNat, Nat.toDigits 10 link.high.toNat] := by
    rw [toList_text, List.splitOn_append_cons_self_of_not_mem (not_mem_toDigits rfl _),
      List.splitOn_eq_singleton (not_mem_toDigits rfl _)]
  simp only [readEnds?, hsplit, readNat?_toDigits, Option.bind_some, Option.map_some, ends]

namespace Netlist

/-- A listing starts with a numeral that ends at a hyphen. -/
theorem exists_toList_text (h : nets.links ≠ []) :
    ∃ n rest, nets.text.toList = Nat.toDigits 10 n ++ '-' :: rest := by
  rw [toList_text h]
  obtain ⟨link, links, hlinks⟩ := List.exists_cons_of_ne_nil h
  rw [hlinks, List.map_cons, Link.toList_text]
  cases links with
  | nil => exact ⟨_, _, List.intercalate_singleton⟩
  | cons next links =>
    rw [List.map_cons, List.intercalate_cons_cons, List.append_assoc, List.append_assoc]
    exact ⟨_, _, rfl⟩

/-- What is listed is read back, every connection and nothing else. -/
theorem readPairs?_text (h : nets.links ≠ []) :
    readPairs? nets.text = some (nets.links.map Link.ends) := by
  have hcomma : ∀ part ∈ nets.links.map fun link => link.text.toList, ',' ∉ part := by
    intro part hpart
    obtain ⟨link, -, rfl⟩ := List.mem_map.mp hpart
    intro hmem
    rcases Link.mem_text hmem with heq | hdigit
    · cases heq
    · exact isDigit_ne hdigit rfl rfl
  rw [readPairs?, toList_text h, List.splitOn_intercalate ',' hcomma (by simpa using h),
    List.mapM_map]
  simp only [Function.comp_def, Link.readEnds?_text]
  exact List.mapM_pure

theorem text_eq_iff : nets.text = "no connections" ↔ nets.links = [] := by
  constructor
  · intro htext
    by_contra h
    have hread := readPairs?_text h
    rw [htext] at hread
    cases hread
  · intro h
    rw [text, h]
    rfl

theorem text_ne_nil (nets : Netlist) : nets.text.toList ≠ [] := by
  by_cases h : nets.links = []
  · rw [text_eq_iff.mpr h]
    exact List.cons_ne_nil _ _
  · obtain ⟨n, rest, htext⟩ := exists_toList_text h
    simp [htext]

/-- Only the words for a board without connections have a blank in them. -/
theorem isTrimmed_text (nets : Netlist) : IsTrimmed nets.text.toList := by
  by_cases h : nets.links = []
  · rw [text_eq_iff.mpr h]
    exact ⟨by rintro _ ⟨⟩; rfl, by rintro _ ⟨⟩; rfl⟩
  · exact isTrimmed_of_forall fun c hc => isBlank_of_mem_text h hc

/-- Different connections are listed differently. -/
theorem text_injective (h : nets.text = other.text) : nets = other := by
  suffices hlinks : nets.links = other.links from congrArg mk hlinks
  by_cases hnone : nets.links = []
  · rw [hnone, eq_comm, ← text_eq_iff, ← h, text_eq_iff.mpr hnone]
  · have hother : other.links ≠ [] := by rwa [ne_eq, ← text_eq_iff, ← h, text_eq_iff]
    have hread := readPairs?_text hnone
    rw [h, readPairs?_text hother, Option.some.injEq] at hread
    exact List.map_injective_iff.mpr Link.ends_injective hread.symm

theorem IsSound.mem_links_iff (h : nets.IsSound count) :
    ⟨a, b⟩ ∈ nets.links ↔ a < b ∧ nets.contains (.between a b) := by
  have hbetween (hab : a ≤ b) : Link.between a b = ⟨a, b⟩ := if_pos hab
  constructor
  · intro hmem
    have hab : a < b := UInt16.lt_iff_toNat_lt.mpr (h.links _ hmem).ascending
    refine ⟨hab, ?_⟩
    rw [hbetween (UInt16.le_of_lt hab), contains]
    exact List.contains_iff_mem.mpr hmem
  · rintro ⟨hab, hmem⟩
    rw [hbetween (UInt16.le_of_lt hab), contains] at hmem
    exact List.contains_iff_mem.mp hmem

/-- Only a board without connections lists nothing. -/
theorem IsSound.links_eq_nil_iff (h : nets.IsSound count) :
    nets.links = [] ↔ ∀ a b, ¬nets.contains (.between a b) := by
  constructor
  · intro hnone a b
    rw [contains, hnone]
    exact Bool.false_ne_true
  · intro hnone
    refine List.eq_nil_iff_forall_not_mem.mpr fun link hlink => ?_
    exact hnone link.low link.high (h.mem_links_iff.mp hlink).2

end Netlist

theorem handle_list (board : Board) :
    simulated.handle (.nets .list) board = (.ok (.text board.nets.live.text), board) :=
  rfl

end Board

namespace Answer

open Board

/-! ## The type of a listing -/

/-- Digits with a hyphen behind them are no numeral with a unit. -/
theorem numeralOf?_hyphen {whole rest : List Char} (hne : whole ≠ [])
    (hdigits : ∀ c ∈ whole, c.isDigit) : numeralOf? (whole ++ '-' :: rest) = none := by
  have hhyphen : ∀ c ∈ ('-' :: rest).head?, c.isDigit = false := by
    rintro _ ⟨⟩
    rfl
  have hspan := takeWhile_dropWhile_append hdigits hhyphen
  have hsign : spanSign (whole ++ '-' :: rest) = ([], whole ++ '-' :: rest) := by
    obtain ⟨c, cs, rfl⟩ := List.exists_cons_of_ne_nil hne
    exact spanSign_append List.mem_cons_self (hdigits c List.mem_cons_self)
  simp only [numeralOf?, hsign, hspan.1, hspan.2, List.isEmpty_eq_false_iff.mpr hne]
  rfl

/-- A listing is neither a numeral nor a word for a truth value. -/
theorem ofValue_listing (nets : Netlist) :
    ofValue nets.text.toList = ⟨nets.text, .string, 0.0⟩ := by
  by_cases hnone : nets.links = []
  · rw [Netlist.text_eq_iff.mpr hnone]
    exact ofValue_text (by decide) (by decide)
  · obtain ⟨n, rest, htext⟩ := Netlist.exists_toList_text hnone
    have hhyphen : '-' ∈ nets.text.toList := by simp [htext]
    have hnumeral : numeralOf? nets.text.toList = none := by
      rw [htext]
      exact numeralOf?_hyphen Nat.toDigits_ne_nil (isDigit_toDigits n)
    rw [ofValue, boolOfWord?_eq_none hhyphen rfl, hnumeral, String.ofList_toList]
    rfl

end Answer

namespace Bench

open Board Answer

variable {σ : Type} {text echo : String}

theorem prepared_displayPrint :
    prepared "display(print)" = .ok ("display(print)", .nets .list) := by
  rfl

/-- There is one way only to ask for the listing, without any arguments. -/
theorem echo_of_list (hp : prepared text = .ok (echo, .nets .list)) : echo = "display(print)" := by
  obtain ⟨c, -, hc⟩ := bind_eq_ok_iff.mp hp
  obtain ⟨parameters, b, hs, hb, hr, rfl⟩ := Command.prepare_eq_ok_iff.mp hc
  obtain ⟨hcategory, haction, hfields⟩ := (Binding.isBound_of_ofCommand hb).asks hs hr
  obtain ⟨category, action, places⟩ := b
  obtain rfl : Category.display = category := hcategory
  obtain rfl : Action.print = action := haction
  cases hfields
  rfl

theorem answer_of_list (h : Hardware σ) (x : Bench σ) (hp : prepared text = .ok (echo, .nets .list))
    {nets : Netlist} (hr : (h.handle (.nets .list) x.device).1 = .ok (.text nets.text)) :
    ofResponse (x.run h text).1 = ⟨nets.text, .string, 0.0⟩ := by
  obtain rfl := echo_of_list hp
  have hresponse : (x.run h text).1 = .success "display(print)" (some nets.text) := by
    rw [run_of_prepared x hp]
    change Response.ofReply _ (h.handle (.nets .list) x.device).1 = _
    rw [hr]
    rfl
  have henclosed : IsEnclosed "display(print)".toList :=
    @IsEnclosed.mk "display".toList "print".toList (by decide) (by decide)
      (flat_of_isWord (by decide))
  rw [hresponse, ofResponse_value_of_isTrimmed henclosed nets.isTrimmed_text nets.text_ne_nil,
    ofValue_listing]

/-- However a board came about, its listing says which nodes are connected: none, in words, or these
pairs, each once and in ascending order. The answer that is read from it is the whole listing. -/
theorem listing_faithful {board : Board} (h : board.SetUp) (requests : List Request) :
    let later := board.afterAll requests
    ∃ text, simulated.handle (.nets .list) later = (.ok (.text text), later) ∧
      (text = "no connections" ↔ ∀ a b, ¬later.isConnected a b) ∧
      (text ≠ "no connections" → ∃ links : List Link,
        readPairs? text = some (links.map Link.ends) ∧
        (links.Pairwise fun x y => x.low < y.low ∨ x.low = y.low ∧ x.high < y.high) ∧
        ∀ a b, ⟨a, b⟩ ∈ links ↔ a < b ∧ later.isConnected a b) ∧
      (∀ other : Board, other.SetUp → ∀ others,
        (simulated.handle (.nets .list) (other.afterAll others)).1 = .ok (.text text) →
          ∀ a b, (other.afterAll others).isConnected a b = later.isConnected a b) ∧
      prepared "display(print)" = .ok ("display(print)", .nets .list) ∧
      ∀ stats command echo, prepared command = .ok (echo, .nets .list) →
        ofResponse ((⟨later, stats⟩ : Bench Board).run simulated command).1 =
          ⟨text, .string, 0.0⟩ := by
  intro later
  have hlive := (h.isSound.afterAll requests).1.nets.live
  refine ⟨later.nets.live.text, handle_list later, ?_, fun hsome => ?_, ?_, prepared_displayPrint, ?_⟩
  · rw [Netlist.text_eq_iff]
    exact hlive.links_eq_nil_iff
  · have hlinks : later.nets.live.links ≠ [] := mt Netlist.text_eq_iff.mpr hsome
    refine ⟨_, Netlist.readPairs?_text hlinks, ?_, fun a b => hlive.mem_links_iff⟩
    exact hlive.ascending.imp fun hbefore => by simpa [Link.before] using hbefore
  · intro other _ others hsame a b
    rw [handle_list] at hsame
    have htext : (other.afterAll others).nets.live.text = later.nets.live.text :=
      Reply.text.inj (Except.ok.inj hsame)
    rw [isConnected, isConnected, Netlist.text_injective htext]
  · intro stats command echo hp
    exact answer_of_list simulated _ hp (congrArg Prod.fst (handle_list later))

/-- The pairs are in the order of their numbers, not of their digits. -/
theorem listing_faithful_threePairs :
    let board := Board.new {}
    let requests : List Request := [.nets (.connect 10 2 false), .nets (.connect 20 1 true),
      .nets (.connect 5 6 true), .nets (.connect 1 3 false), .nets (.disconnect 6 5 false)]
    let later := board.afterAll requests
    board.SetUp ∧ readPairs? "1-3,1-20,2-10" = some [(1, 3), (1, 20), (2, 10)] ∧
      ¬(∀ a b, ¬later.isConnected a b) ∧
      ∀ stats, ofResponse ((⟨later, stats⟩ : Bench Board).run simulated "Display( PRINT )").1 =
        ⟨"1-3,1-20,2-10", .string, 0.0⟩ := by
  intro board requests later
  obtain ⟨text, hreply, hnone, -, -, -, hanswer⟩ := listing_faithful (.new {}) requests
  rw [handle_list, Prod.mk.injEq, Except.ok.injEq, Reply.text.injEq] at hreply
  have hlive : later.nets.live = ⟨[⟨1, 3⟩, ⟨1, 20⟩, ⟨2, 10⟩]⟩ := rfl
  have hlisting : text = "1-3,1-20,2-10" := by
    rw [← hreply.1, hlive]
    rfl
  subst hlisting
  exact ⟨.new {}, rfl, mt hnone.mpr (by decide), fun stats => hanswer stats _ _ rfl⟩

end Bench

end BenchConsole
