import Slopmud.Lib.Separator
import Slopmud.Lib.Trim
import Slopmud.Broker.Bans
import Slopmud.Web.Portal

/-!
# Which addresses the portal lets in

The rules of the allowlist compare texts. What they come to is a comparison of labels: the domain ends
with the labels of the suffix of some rule.
-/

namespace Slopmud.Web

/-- The domain of an address with this after its last `@` -/
def domainText (after : Text) : Text := Text.toAsciiLowercase (trimDots (Text.trim after))

/-- The labels of a domain, or of a suffix -/
def labels (t : Text) : List Text := t.splitOn '.'

/-- A rule lets a domain in: its suffix is not empty, and the domain ends with the labels of it. -/
def RuleMatches (domain suffix : Text) : Prop :=
  normalizeSuffix suffix ≠ [] ∧ labels (normalizeSuffix suffix) <:+ labels domain

theorem ruleMatches_iff {domain suffix : Text} : RuleMatches domain suffix ↔
    (!(normalizeSuffix suffix).isEmpty && (domain == normalizeSuffix suffix
      || ('.' :: normalizeSuffix suffix).isSuffixOf domain)) = true := by
  rw [RuleMatches, labels, labels, Separator.splitOn_suffix_iff]
  simp [List.isSuffixOf_iff_suffix]

/-! ## The last `@` -/

theorem splitAtChar_eq_none {d : Char} {s : Text} (h : d ∉ s) : splitAtChar d s = none := by
  induction s with
  | nil => rfl
  | cons c s ih =>
    obtain ⟨hc, hs⟩ : d ≠ c ∧ d ∉ s := by simpa using h
    have hrest : Slopmud.Sbc.splitOnce d s = none := ih hs
    rw [splitAtChar, Slopmud.Sbc.splitOnce, if_neg (Ne.symm hc), hrest]
    rfl

theorem trim_at (a b : Text) : Text.trim (a ++ '@' :: b) = Text.trimStart a ++ '@' :: Text.trimEnd b := by
  have hat : Text.isWhitespace '@' = false := by decide
  rw [Text.trim, Text.trimStart_around hat, Text.trimEnd_around hat]

theorem mem_of_mem_trim {c : Char} {s : Text} (h : c ∈ Text.trim s) : c ∈ s := by
  have hend : c ∈ Text.trimStart s := by
    have hsub := List.dropWhile_sublist Text.isWhitespace (l := (Text.trimStart s).reverse)
    exact List.mem_reverse.mp (hsub.subset (List.mem_reverse.mp h))
  exact (List.dropWhile_sublist _).subset hend

theorem exists_last_at {s : Text} (h : '@' ∈ s) : ∃ a b, s = a ++ '@' :: b ∧ '@' ∉ b := by
  obtain ⟨x, y, hsplit, hx⟩ := List.eq_append_cons_of_mem (List.mem_reverse.mpr h)
  have hrev := congrArg List.reverse hsplit
  rw [List.reverse_reverse] at hrev
  exact ⟨y.reverse, x.reverse, by simpa using hrev, by simpa using hx⟩

theorem emailAllowed_after {a b : Text} (hb : '@' ∉ b) (suffixes : List Text) :
    emailAllowedByRules (a ++ '@' :: b) suffixes = true ↔
      domainText b ≠ [] ∧ ∃ suffix ∈ suffixes, RuleMatches (domainText b) suffix := by
  have hend : '@' ∉ (Text.trimEnd b).reverse := by
    intro hmem
    have hsub := List.dropWhile_sublist Text.isWhitespace (l := b.reverse)
    rw [Text.trimEnd, List.reverse_reverse] at hmem
    exact hb (List.mem_reverse.mp (hsub.subset hmem))
  have hlast : splitAtChar '@' (Text.trim (a ++ '@' :: b)).reverse
      = some ((Text.trimEnd b).reverse, (Text.trimStart a).reverse) := by
    have hrev : (Text.trimStart a ++ '@' :: Text.trimEnd b).reverse
        = (Text.trimEnd b).reverse ++ '@' :: (Text.trimStart a).reverse := by simp
    rw [trim_at, hrev, splitAtChar, Slopmud.Broker.splitOnce_append hend]
  rw [emailAllowedByRules, hlast]
  simp only [List.reverse_reverse, Text.trim_trimEnd]
  rw [← domainText]
  by_cases hdomain : domainText b = []
  · simp [hdomain]
  · simp only [List.isEmpty_iff, hdomain, if_false, List.any_eq_true, ← ruleMatches_iff]
    exact (and_iff_right hdomain).symm

theorem emailAllowed_without {email : Text} (h : '@' ∉ email) (suffixes : List Text) :
    emailAllowedByRules email suffixes = false := by
  have hnone : '@' ∉ (Text.trim email).reverse := fun hmem => h (mem_of_mem_trim (List.mem_reverse.mp hmem))
  rw [emailAllowedByRules, splitAtChar_eq_none hnone]

/-! ## Case -/

/-- Only letters become other characters. -/
theorem lowerChar_eq_iff {c d : Char} (hd : d.toNat < 65) : Text.lowerChar c = d ↔ c = d := by
  cases hc : Text.isAsciiUppercase c with
  | false => rw [Text.lowerChar_of_not_upper hc]
  | true =>
    obtain ⟨hlow, hhigh⟩ := Text.isAsciiUppercase_iff.mp hc
    have hvalid : (c.toNat + 32).isValidChar := .inl (by omega)
    have hnat : (Text.lowerChar c).toNat = c.toNat + 32 := by
      rw [Text.lowerChar, if_pos hc, Char.ofNat, dif_pos hvalid]
      rfl
    refine iff_of_false (fun h => ?_) (fun h => ?_)
    · rw [h] at hnat
      omega
    · rw [h] at hlow
      omega

theorem dropDots_lower (t : Text) :
    (Text.toAsciiLowercase t).dropWhile (· == '.') = Text.toAsciiLowercase (t.dropWhile (· == '.')) := by
  have hdot : ((· == '.') ∘ Text.lowerChar) = (· == '.') := by
    funext c
    rw [Function.comp_apply, Bool.eq_iff_iff, beq_iff_eq, beq_iff_eq]
    exact lowerChar_eq_iff (by decide)
  rw [Text.toAsciiLowercase, List.dropWhile_map, hdot, Text.toAsciiLowercase]

theorem trimDots_lower (t : Text) : trimDots (Text.toAsciiLowercase t) = Text.toAsciiLowercase (trimDots t) := by
  have hrev : ∀ t : Text, (Text.toAsciiLowercase t).reverse = Text.toAsciiLowercase t.reverse :=
    fun t => (List.map_reverse ..).symm
  rw [trimDots, hrev, dropDots_lower, hrev, trimDots]

theorem normalizeSuffix_lower (t : Text) : normalizeSuffix (Text.toAsciiLowercase t) = normalizeSuffix t := by
  rw [normalizeSuffix, Text.trim_toAsciiLowercase, dropDots_lower, trimDots_lower, Text.toAsciiLowercase_idem,
    normalizeSuffix]

theorem domainText_lower (t : Text) : domainText (Text.toAsciiLowercase t) = domainText t := by
  rw [domainText, Text.trim_toAsciiLowercase, trimDots_lower, Text.toAsciiLowercase_idem, domainText]

theorem at_mem_lower {t : Text} : '@' ∈ Text.toAsciiLowercase t ↔ '@' ∈ t := by
  rw [Text.toAsciiLowercase, List.mem_map]
  constructor
  · rintro ⟨c, hc, heq⟩
    rw [lowerChar_eq_iff (by decide)] at heq
    exact heq ▸ hc
  · exact fun h => ⟨'@', h, by decide⟩

/-- The answer is that for the address and the rules in small letters. -/
theorem emailAllowed_lower (email : Text) (suffixes : List Text) :
    emailAllowedByRules (Text.toAsciiLowercase email) (suffixes.map Text.toAsciiLowercase)
      = emailAllowedByRules email suffixes := by
  by_cases hat : '@' ∈ email
  · obtain ⟨a, b, rfl, hb⟩ := exists_last_at hat
    have hlower : Text.toAsciiLowercase (a ++ '@' :: b)
        = Text.toAsciiLowercase a ++ '@' :: Text.toAsciiLowercase b := by
      simp [Text.toAsciiLowercase, show Text.lowerChar '@' = '@' by decide]
    have hb' : '@' ∉ Text.toAsciiLowercase b := fun h => hb (at_mem_lower.mp h)
    rw [Bool.eq_iff_iff, hlower, emailAllowed_after hb', emailAllowed_after hb, domainText_lower]
    simp only [List.mem_map, exists_exists_and_eq_and, RuleMatches, normalizeSuffix_lower]
  · rw [emailAllowed_without hat, emailAllowed_without (fun h => hat (at_mem_lower.mp h))]

/-- **The allowlist matches whole labels**: an address is let in if and only if it has an `@`, the domain
after the last one is not empty, and it ends with the labels of the suffix of a rule. So more rules let
no less in, and the case of the address and of the rules does not matter. -/
theorem allowlist_matches_labels (email : Text) (suffixes : List Text) :
    (emailAllowedByRules email suffixes = true ↔ ∃ before after, email = before ++ '@' :: after
        ∧ '@' ∉ after ∧ domainText after ≠ [] ∧ ∃ suffix ∈ suffixes, RuleMatches (domainText after) suffix)
      ∧ (∀ more, suffixes ⊆ more → emailAllowedByRules email suffixes = true →
        emailAllowedByRules email more = true)
      ∧ ∀ email' suffixes', Text.toAsciiLowercase email' = Text.toAsciiLowercase email →
        suffixes'.map Text.toAsciiLowercase = suffixes.map Text.toAsciiLowercase →
        emailAllowedByRules email' suffixes' = emailAllowedByRules email suffixes := by
  have hallowed : ∀ suffixes, emailAllowedByRules email suffixes = true ↔ ∃ before after,
      email = before ++ '@' :: after ∧ '@' ∉ after ∧ domainText after ≠ []
        ∧ ∃ suffix ∈ suffixes, RuleMatches (domainText after) suffix := by
    intro suffixes
    constructor
    · intro h
      by_cases hat : '@' ∈ email
      · obtain ⟨before, after, rfl, hafter⟩ := exists_last_at hat
        exact ⟨before, after, rfl, hafter, (emailAllowed_after hafter suffixes).mp h⟩
      · rw [emailAllowed_without hat] at h
        cases h
    · rintro ⟨before, after, rfl, hafter, hmatch⟩
      exact (emailAllowed_after hafter suffixes).mpr hmatch
  refine ⟨hallowed suffixes, fun more hsub h => ?_, fun email' suffixes' hemail hsuffixes => ?_⟩
  · obtain ⟨before, after, heq, hafter, hne, suffix, hsuffix, hmatch⟩ := (hallowed suffixes).mp h
    exact (hallowed more).mpr ⟨before, after, heq, hafter, hne, suffix, hsub hsuffix, hmatch⟩
  · rw [← emailAllowed_lower, hemail, hsuffixes, emailAllowed_lower]

end Slopmud.Web
