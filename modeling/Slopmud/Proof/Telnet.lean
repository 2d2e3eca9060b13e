import Slopmud.Broker.Telnet
import Slopmud.Slopio.Telnet

/-!
# Telnet stripping is exact

The parser against the grammar of what a telnet peer sends. Each item of the grammar takes the
parser from the state for data back to it, so a stream of items gives the data and the replies of
the items, in order, whatever the chunks.
-/

namespace Slopmud.Slopio

open Telnet

/-- What a telnet stream is made of. -/
inductive TelnetItem where
  | plain (b : UInt8) (h : b ≠ IAC)
  /-- `IAC IAC` -/
  | escaped
  | negotiate (cmd opt : UInt8) (h : cmd = DO ∨ cmd = DONT ∨ cmd = WILL ∨ cmd = WONT)
  | command (c : UInt8) (h : c ≠ IAC ∧ c ≠ SB ∧ ¬ (c = DO ∨ c = DONT ∨ c = WILL ∨ c = WONT))
  /-- `IAC SB opt payload IAC SE` -/
  | subneg (opt : UInt8) (payload : Bytes)

namespace TelnetItem

/-- A byte of a payload is doubled if it is `IAC`. -/
def quoted (b : UInt8) : Bytes := if b = IAC then [IAC, IAC] else [b]

def bytes : TelnetItem → Bytes
  | plain b _ => [b]
  | escaped => [IAC, IAC]
  | negotiate cmd opt _ => [IAC, cmd, opt]
  | command c _ => [IAC, c]
  | subneg opt payload => [IAC, SB, opt] ++ payload.flatMap quoted ++ [IAC, SE]

/-- What is left of an item when the commands are taken out. -/
def data : TelnetItem → Bytes
  | plain b _ => [b]
  | escaped => [IAC]
  | _ => []

/-- `WONT` for a `DO`, `DONT` for a `WILL`. -/
def replies : TelnetItem → Bytes
  | negotiate cmd opt _ => IacParser.reply cmd opt
  | _ => []

end TelnetItem

open TelnetItem

namespace IacParser

/-- A payload is swallowed. -/
theorem parse_payload (refuse : Bool) (opt : UInt8) (payload rest : Bytes) (buf : Bytes) :
    ∃ buf', parse ⟨.subneg (some opt) false buf, refuse⟩ (payload.flatMap quoted ++ rest)
      = parse ⟨.subneg (some opt) false buf', refuse⟩ rest := by
  induction payload generalizing buf with
  | nil => exact ⟨buf, rfl⟩
  | cons b payload ih =>
    by_cases hb : b = IAC
    · obtain ⟨buf', hbuf'⟩ := ih (buf ++ [IAC])
      refine ⟨buf', ?_⟩
      rw [List.flatMap_cons, quoted, if_pos hb, List.append_assoc, ← hbuf']
      rfl
    · obtain ⟨buf', hbuf'⟩ := ih (buf ++ [b])
      refine ⟨buf', ?_⟩
      rw [List.flatMap_cons, quoted, if_neg hb, List.append_assoc, ← hbuf']
      simp only [List.cons_append, List.nil_append, parse, byte, if_neg hb]

/-- **An item goes from data to data.** -/
theorem parse_item (refuse : Bool) (item : TelnetItem) (rest : Bytes) :
    parse ⟨.data, refuse⟩ (item.bytes ++ rest)
      = ((parse ⟨.data, refuse⟩ rest).1, item.data ++ (parse ⟨.data, refuse⟩ rest).2.1,
        (if refuse then item.replies else []) ++ (parse ⟨.data, refuse⟩ rest).2.2) := by
  cases item with
  | plain b hb => simp [bytes, data, TelnetItem.replies, parse, byte, hb]
  | escaped => simp [bytes, data, TelnetItem.replies, parse, byte]
  | negotiate cmd opt hcmd =>
    have hne : cmd ≠ IAC := by rintro rfl; revert hcmd; decide
    simp [bytes, data, TelnetItem.replies, parse, byte, reply, hne, hcmd]
  | command c hc => simp [bytes, data, TelnetItem.replies, parse, byte, hc.1, hc.2.1, hc.2.2]
  | subneg opt payload =>
    have hhead : (TelnetItem.subneg opt payload).bytes ++ rest
        = IAC :: SB :: opt :: (payload.flatMap quoted ++ (IAC :: SE :: rest)) := by simp [bytes]
    have hstart : parse ⟨.data, refuse⟩ (IAC :: SB :: opt :: (payload.flatMap quoted ++ (IAC :: SE :: rest)))
        = parse ⟨.subneg (some opt) false [], refuse⟩ (payload.flatMap quoted ++ (IAC :: SE :: rest)) := rfl
    obtain ⟨buf, hbuf⟩ := parse_payload refuse opt payload (IAC :: SE :: rest) []
    have hstop : parse ⟨.subneg (some opt) false buf, refuse⟩ (IAC :: SE :: rest)
        = parse ⟨.data, refuse⟩ rest := rfl
    rw [hhead, hstart, hbuf, hstop]
    simp [data, TelnetItem.replies]

theorem parse_items (refuse : Bool) (items : List TelnetItem) :
    parse ⟨.data, refuse⟩ (items.flatMap bytes)
      = (⟨.data, refuse⟩, items.flatMap data, if refuse then items.flatMap TelnetItem.replies else []) := by
  induction items with
  | nil => cases refuse <;> rfl
  | cons item items ih =>
    rw [List.flatMap_cons, parse_item, ih]
    cases refuse <;> rfl

end IacParser

/-- **Telnet stripping is exact.** -/
theorem telnet_exact (refuse : Bool) (items : List TelnetItem) (chunks : List Bytes)
    (h : chunks.flatten = items.flatMap bytes) :
    ((IacParser.new.refuse refuse).parseAll chunks).2.1 = items.flatMap data
      ∧ ((IacParser.new.refuse refuse).parseAll chunks).2.2
        = if refuse then items.flatMap TelnetItem.replies else [] := by
  have hparse := IacParser.parse_items refuse items
  rw [IacParser.parseAll_eq, h]
  exact ⟨congrArg (fun r => r.2.1) hparse, congrArg (fun r => r.2.2) hparse⟩

/-- A negotiation and a doubled byte, each cut in two. -/
theorem telnet_exact_cut :
    ((IacParser.new.refuse true).parseAll [[255, 253], [7, 122, 255], [255]]).2 = ([122, 255], [255, 252, 7]) :=
  have h := telnet_exact true [.negotiate DO 7 (.inl rfl), .plain 122 (by decide), .escaped]
    [[255, 253], [7, 122, 255], [255]] (by decide)
  Prod.ext h.1 h.2

/-! ## The broker's parser -/

/-- The state without the payload. -/
def IacState.forget : IacState → Broker.IacParser
  | .data => .data
  | .iac => .iac
  | .negotiate cmd => .negotiate cmd
  | .subneg opt seen _ => .subneg opt seen

/-- A byte does the same in both. -/
theorem byte_forget (state : IacState) (b : UInt8) :
    (IacParser.byte ⟨state, true⟩ b).1.forget = state.forget.next b
      ∧ (IacParser.byte ⟨state, true⟩ b).2
        = (if state.forget.keeps b then [b] else [], state.forget.replies b) := by
  cases state with
  | data =>
    by_cases hb : b = IAC
    · rw [hb]
      exact ⟨rfl, rfl⟩
    · have hkeeps : Broker.IacParser.data.keeps b = true := decide_eq_true hb
      simp only [IacParser.byte, IacState.forget, if_neg hb, hkeeps, if_true]
      exact ⟨(if_neg hb).symm, rfl⟩
  | iac =>
    by_cases hb : b = IAC
    · rw [hb]
      exact ⟨rfl, rfl⟩
    · have hkeeps : Broker.IacParser.iac.keeps b = false := decide_eq_false hb
      have hnext : Broker.IacParser.iac.next b = _ := if_neg hb
      simp only [IacParser.byte, IacState.forget, if_neg hb, hkeeps, hnext]
      by_cases hcmd : b = DO ∨ b = DONT ∨ b = WILL ∨ b = WONT
      · rw [if_pos hcmd]
        exact ⟨(if_pos hcmd).symm, rfl⟩
      · rw [if_neg hcmd]
        by_cases hsb : b = SB
        · rw [hsb]
          exact ⟨rfl, rfl⟩
        · rw [if_neg hsb]
          exact ⟨((if_neg hcmd).trans (if_neg hsb)).symm, rfl⟩
  | negotiate cmd => exact ⟨rfl, rfl⟩
  | subneg opt seen buf =>
    cases opt with
    | none => exact ⟨rfl, rfl⟩
    | some opt =>
      cases seen with
      | true =>
        by_cases hse : b = SE
        · rw [hse]
          exact ⟨rfl, rfl⟩
        · have hnext : (Broker.IacParser.subneg (some opt) true).next b = _ := if_neg hse
          simp only [IacParser.byte, IacState.forget, if_neg hse, hnext]
          by_cases hb : b = IAC
          · rw [if_pos hb]
            exact ⟨rfl, rfl⟩
          · rw [if_neg hb]
            exact ⟨rfl, rfl⟩
      | false =>
        simp only [IacParser.byte, IacState.forget]
        by_cases hb : b = IAC
        · rw [hb]
          exact ⟨rfl, rfl⟩
        · have hnext : (Broker.IacParser.subneg (some opt) false).next b = .subneg (some opt) false :=
            congrArg (Broker.IacParser.subneg (some opt)) (decide_eq_false hb)
          rw [if_neg hb, hnext]
          exact ⟨rfl, rfl⟩

/-- **The parser of the broker's model** is this one, which refuses negotiations. -/
theorem parse_values (state : IacState) (bs : List Broker.Byte) :
    ((IacParser.parse ⟨state, true⟩ (Broker.values bs)).1.state.forget = state.forget.run bs)
      ∧ (IacParser.parse ⟨state, true⟩ (Broker.values bs)).2
        = (Broker.values (state.forget.dataOf bs), state.forget.repliesTo bs) := by
  induction bs generalizing state with
  | nil => exact ⟨rfl, rfl⟩
  | cons b bs ih =>
    obtain ⟨hstate, hout⟩ := byte_forget state b.val
    obtain ⟨ihstate, ihout⟩ := ih (IacParser.byte ⟨state, true⟩ b.val).1
    rw [hstate] at ihstate ihout
    refine ⟨ihstate, ?_⟩
    simp only [Broker.values, List.map_cons, IacParser.parse, Broker.IacParser.dataOf,
      Broker.IacParser.repliesTo]
    simp only [Broker.values] at ihout
    rw [congrArg Prod.fst hout, congrArg Prod.snd hout, congrArg Prod.fst ihout, congrArg Prod.snd ihout]
    cases state.forget.keeps b.val <;> rfl

end Slopmud.Slopio
