import Sandstar.Decimals
import Sandstar.NamedSlots

set_option autoImplicit false

/-!
# Both ways across an output bridge (sox_handlers.rs)

A component of the user's that is named after an output channel is to follow the
channel when another client writes it, and to lead it otherwise. `update_from_channels`
finds the component by the exact name, `execute_components` by parsing every name.
-/
namespace Sandstar.OutputBridges
open ComponentTree SoxProtocol SoxSlots NamedSlots

section Names

def canonicalName (ch : Int32) : String := "ch" ++ toString ch.toInt

theorem parseI32_digits {n : ℕ} (h : (n : Int) < 2 ^ 31) :
    parseI32 (Nat.toDigits 10 n) = some (Int32.ofInt n) := by
  have hall : ((Nat.toDigits 10 n).all fun c => 48 ≤ c.toNat && c.toNat ≤ 57) = true := by
    refine List.all_eq_true.2 fun c hc => ?_
    have hdigit := Decimals.isDigit_of_mem hc
    simp only [Char.isDigit, Bool.and_eq_true, decide_eq_true_eq] at hdigit ⊢
    exact hdigit
  have hvalue := Decimals.sum_digits n
  have hne := Nat.toDigits_ne_nil (n := n) (b := 10)
  have hminus : ∀ cs, Nat.toDigits 10 n ≠ '-' :: cs := by
    intro cs heq
    exact Decimals.head_ne (c := '-') (by decide) n (by rw [heq]; rfl)
  have hplus : ∀ cs, Nat.toDigits 10 n ≠ '+' :: cs := by
    intro cs heq
    exact Decimals.head_ne (c := '+') (by decide) n (by rw [heq]; rfl)
  unfold parseI32
  split
  · rename_i cs heq
    split at heq
    · rename_i hcs
      exact absurd hcs (hminus _)
    · rename_i hcs
      exact absurd hcs (hplus _)
    · cases heq
      rw [if_pos ⟨hne, hall⟩]
      simp only [hvalue, Bool.false_eq_true, if_false]
      exact if_pos ⟨by omega, h⟩

theorem trimCh_of_ne {cs : List Char} (h : cs.head? ≠ some 'c') : trimCh cs = cs := by
  unfold trimCh
  split
  · exact absurd rfl h
  · rfl

/-- The parse that `execute_components` makes of a name reads the channel back. -/
theorem bridgeChannel_canonicalName {ch : Int32} (h : 0 < ch) :
    bridgeChannel (canonicalName ch) = some ch := by
  have hpos : 0 < ch.toInt := Int32.lt_iff_toInt_lt.1 h
  have hlist : (canonicalName ch).toList = 'c' :: 'h' :: Nat.toDigits 10 ch.toInt.toNat := by
    rw [canonicalName, String.toList_append, Decimals.toList_nonneg hpos.le]
    rfl
  have htrim : trimCh (Nat.toDigits 10 ch.toInt.toNat) = Nat.toDigits 10 ch.toInt.toNat := by
    exact trimCh_of_ne (Decimals.head_ne (by decide) _)
  have hdrop : (Nat.toDigits 10 ch.toInt.toNat).dropWhile (· = '_') =
      Nat.toDigits 10 ch.toInt.toNat := by
    refine List.dropWhile_eq_self_iff.2 fun hlen hscore => ?_
    have hmem := Decimals.isDigit_of_mem (List.getElem_mem hlen)
    rw [of_decide_eq_true hscore] at hmem
    exact absurd hmem (by decide)
  have hparse : parseI32 (Nat.toDigits 10 ch.toInt.toNat) = some ch := by
    have hlt := ch.toInt_lt
    rw [parseI32_digits (by omega), Int.toNat_of_nonneg hpos.le, Int32.ofInt_toInt]
  unfold bridgeChannel
  rw [hlist]
  simp only [trimCh, htrim, hdrop, hparse]
  simp [h]

theorem bridgeChannel_pos {name : String} {ch : Int32} (h : bridgeChannel name = some ch) :
    0 < ch := by
  unfold bridgeChannel at h
  split at h
  · simpa using (Option.filter_eq_some_iff.1 h).2
  · cases h

end Names

section Recognition

variable {t : ComponentTree} {c : VirtualComponent} {ch : Int32}

def syncTarget (t : ComponentTree) (ch : Int32) : Option UInt16 :=
  (t.lookupByName (canonicalName ch)).filter t.isUserAdded

/-- `update_from_channels` copies the channel's value into the component. -/
def CopiesIn (t : ComponentTree) (c : VirtualComponent) (ch : Int32) : Prop :=
  syncTarget t ch = some c.compId

/-- `execute_components` copies the component's value to the channel. -/
def CopiesOut (t : ComponentTree) (c : VirtualComponent) (ch : Int32) : Prop :=
  writeOf t c = some ⟨c.compId, ch, 1⟩

/-- The name is the channel's own, and the index leads to the component if it can lead
    the channel at all; or the name is not another spelling of it. -/
def Recognised (t : ComponentTree) (c : VirtualComponent) (ch : Int32) : Prop :=
  let indexed := t.lookupByName (canonicalName ch) = some c.compId
  if c.name = canonicalName ch then indexed ↔ 0 < ch ∧ isChannelRead c = false
  else indexed ↔ bridgeChannel c.name = some ch ∧ isChannelRead c = false

theorem copiesIn_iff (huser : t.isUserAdded c.compId = true) :
    CopiesIn t c ch ↔ t.lookupByName (canonicalName ch) = some c.compId := by
  unfold CopiesIn syncTarget
  rw [Option.filter_eq_some_iff]
  exact and_iff_left huser

theorem copiesOut_iff_named : CopiesOut t c ch ↔ isChannelRead c = false ∧
    t.isUserAdded c.compId = true ∧ ch ∈ t.outputChannelIds ∧ bridgeChannel c.name = some ch := by
  unfold CopiesOut writeOf bridgeOf
  by_cases hread : isChannelRead c = true
  · rw [if_pos hread]
    split_ifs <;> simp [hread]
  · rw [if_neg hread]
    by_cases huser : t.isUserAdded c.compId = true
    · rw [if_pos huser]
      cases hch : bridgeChannel c.name with
      | none => simp
      | some n =>
        by_cases hn : n = ch
        · subst hn
          by_cases hmem : n ∈ t.outputChannelIds
          · simp [hmem, hread, huser]
          · simp [hmem]
        · by_cases hmem : n ∈ t.outputChannelIds
          · simp [hmem, hn]
          · simp [hmem, hn]
    · rw [if_neg huser]
      simp [huser]

theorem copiesOut_iff (huser : t.isUserAdded c.compId = true) (hout : ch ∈ t.outputChannelIds) :
    CopiesOut t c ch ↔ bridgeChannel c.name = some ch ∧ isChannelRead c = false := by
  rw [copiesOut_iff_named]
  constructor
  · rintro ⟨hread, -, -, hname⟩
    exact ⟨hname, hread⟩
  · rintro ⟨hname, hread⟩
    exact ⟨hread, huser, hout, hname⟩

theorem canonical_spelling (hname : c.name = canonicalName ch) :
    bridgeChannel c.name = some ch ↔ 0 < ch := by
  constructor
  · exact bridgeChannel_pos
  · intro h
    rw [hname]
    exact bridgeChannel_canonicalName h

theorem copies_agree_iff (huser : t.isUserAdded c.compId = true)
    (hout : ch ∈ t.outputChannelIds) :
    (CopiesIn t c ch ↔ CopiesOut t c ch) ↔ Recognised t c ch := by
  rw [copiesIn_iff huser, copiesOut_iff huser hout]
  unfold Recognised
  dsimp only
  split_ifs with hname
  · rw [canonical_spelling hname]
  · rfl

end Recognition
end Sandstar.OutputBridges
