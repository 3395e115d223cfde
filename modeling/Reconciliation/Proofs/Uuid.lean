/-
# UUIDs read back from their text

The text of a UUID has all of its digits, so it tells the UUID from all others; and stamps with one
tag are different for different numbers.

* `ofText?_toText`: a UUID read back;
* `toText_inj`, `nodup_map_stamped`: texts and stamps are different for different UUIDs and numbers.
-/
import Reconciliation.Uuid
import Reconciliation.Proofs.Text.Digits

namespace Reconciliation
namespace Uuid

-- Powers are those of the core library, whatever other instances are in scope.
attribute [local instance (2000)] instPowNat

/-! ## 1. Digits -/

/-- The last digits of a number, most significant first. -/
def lastDigits (k v : Nat) : List Char :=
  (List.range k).map fun i => Text.hexDigit (v >>> (4 * (k - 1 - i)))

theorem lastDigits_succ (k v : Nat) :
    lastDigits (k + 1) v = Text.hexDigit (v >>> (4 * k)) :: lastDigits k v := by
  simp only [lastDigits, List.range_succ_eq_map, List.map_cons, List.map_map, List.cons.injEq]
  refine ⟨rfl, List.map_congr_left fun i _ => ?_⟩
  simp only [Function.comp]
  congr 3
  omega

/-- Reading digits appends them to the number in front. -/
theorem foldlM_lastDigits (k v m : Nat) :
    (lastDigits k v).foldlM (fun n c => (Text.hexValue? c).map (n * 16 + ·)) m =
      some (m * 16 ^ k + v % 16 ^ k) := by
  induction k generalizing m with
  | zero => simp [lastDigits, Nat.mod_one]
  | succ k ih =>
    have hpow : v >>> (4 * k) = v / 16 ^ k := by
      rw [Nat.shiftRight_eq_div_pow, Nat.pow_mul]
    rw [lastDigits_succ, List.foldlM_cons, Text.hexValue?_hexDigit, Option.map_some,
      Option.bind_eq_bind, Option.bind_some, ih, hpow, Nat.mod_pow_succ, Nat.pow_succ]
    congr 1
    rw [Nat.add_mul, Nat.mul_assoc, Nat.mul_comm 16, Nat.mul_comm (v / 16 ^ k % 16)]
    omega

theorem hexDigits_eq (u : Uuid) : u.hexDigits = lastDigits 32 u.value := rfl

theorem length_hexDigits (u : Uuid) : u.hexDigits.length = 32 := by
  simp [hexDigits]

theorem ofHexDigits?_hexDigits (u : Uuid) : ofHexDigits? u.hexDigits = some u := by
  have hcount : (16 : Nat) ^ 32 = count := by decide
  have hvalue : ofNat (0 * 16 ^ 32 + u.value % 16 ^ 32) = u := by
    rw [hcount, Nat.zero_mul, Nat.zero_add, Nat.mod_eq_of_lt u.value_lt]
    simp only [ofNat, Nat.mod_eq_of_lt u.value_lt]
  rw [ofHexDigits?, if_pos u.length_hexDigits, hexDigits_eq, foldlM_lastDigits, Option.map_some,
    hvalue]

/-! ## 2. Groups -/

theorem length_toChars (u : Uuid) : u.toChars.length = 36 := by
  simp [toChars, length_hexDigits]

theorem ofHyphenated?_toChars (u : Uuid) : ofHyphenated? u.toChars = some u := by
  have hlength := u.length_hexDigits
  have hyphens : [8, 13, 18, 23].all (fun i => u.toChars[i]? == some '-') = true := by
    simp [toChars, hlength, List.getElem?_append]
  have hdigits : u.toChars.take 8 ++ (u.toChars.drop 9).take 4 ++ (u.toChars.drop 14).take 4 ++
      (u.toChars.drop 19).take 4 ++ u.toChars.drop 24 = u.hexDigits := by
    have htail : ∀ i j, i ≤ j → (u.hexDigits.drop i).take (j - i) ++ u.hexDigits.drop j =
        u.hexDigits.drop i := fun i j hij => by
      have := List.take_append_drop (j - i) (u.hexDigits.drop i)
      rwa [List.drop_drop, Nat.add_sub_cancel' hij] at this
    have hgroups : u.hexDigits.take 8 ++ ((u.hexDigits.drop 8).take 4 ++
        ((u.hexDigits.drop 12).take 4 ++ ((u.hexDigits.drop 16).take 4 ++
          u.hexDigits.drop 20))) = u.hexDigits := by
      rw [htail 16 20 (by decide), htail 12 16 (by decide), htail 8 12 (by decide),
        List.take_append_drop]
    simpa [toChars, List.take_append, List.drop_append, List.drop_take, hlength] using hgroups
  rw [ofHyphenated?, if_pos (by rw [u.length_toChars, hyphens]; rfl), hdigits]
  exact u.ofHexDigits?_hexDigits

/-- **A UUID read back from its text is the same.** -/
theorem ofText?_toText (u : Uuid) : ofText? u.toText = some u := by
  rw [ofText?, toText, String.toList_ofList, ofChars?, if_neg (by simp [length_toChars]),
    if_pos u.length_toChars]
  exact u.ofHyphenated?_toChars

theorem toText_inj {u v : Uuid} (h : u.toText = v.toText) : u = v := by
  have := congrArg ofText? h
  rwa [ofText?_toText, ofText?_toText, Option.some.injEq] at this

/-! ## 3. Stamps -/

/-- The number of a stamp: tag, number and version each in their bits. -/
theorem value_stamped (tag n : Nat) :
    (stamped tag n).value = tag % 281474976710656 * 1208925819614629174706176 +
      (n / 4611686018427387904 % 4096 + 16384) * 18446744073709551616 +
      n % 4611686018427387904 + 9223372036854775808 := by
  simp only [stamped, withVersion, ofNat, count, Nat.shiftLeft_eq, Nat.shiftRight_eq_div_pow,
    Nat.reducePow, Nat.reduceMul, Nat.reduceMod, Nat.one_mul]
  omega

/-- Different words make different stamps. -/
theorem stamped_inj {tag m n : Nat} (hm : m < wordCount) (hn : n < wordCount)
    (h : stamped tag m = stamped tag n) : m = n := by
  have hvalue := congrArg value h
  rw [value_stamped, value_stamped] at hvalue
  simp only [wordCount] at hm hn
  omega

theorem nodup_map_stamped {tag n : Nat} (hn : n ≤ wordCount) :
    ((List.range n).map (stamped tag)).Nodup := by
  rw [List.Nodup, List.pairwise_map]
  refine List.nodup_range.imp_of_mem fun {k l} hk hl hne heq => hne ?_
  exact stamped_inj (Nat.lt_of_lt_of_le (List.mem_range.1 hk) hn)
    (Nat.lt_of_lt_of_le (List.mem_range.1 hl) hn) heq

end Uuid
end Reconciliation
