import Letterhead.Encoding.Utf8

/-!
# Characters of UTF-8

Reading a first character undoes writing one, and what reading gives is always written as the very
bytes that were read.

## Main results

* `Utf8.readFirst_utf8EncodeChar` — a written character is read
* `Utf8.utf8EncodeChar_of_readFirst` — a character that was read is written as it stood
-/

namespace Letterhead.Utf8

/-- The byte that holds the last six bits of a number. -/
def follower (n : Nat) : UInt8 := UInt8.ofNat (n % 0x40 + 0x80)

theorem toNat_ofNat_of_lt {n : Nat} (h : n < 0x100) : (UInt8.ofNat n).toNat = n := by
  rw [UInt8.toNat_ofNat']
  omega

theorem toNat_follower (n : Nat) : (follower n).toNat = n % 0x40 + 0x80 :=
  toNat_ofNat_of_lt (by omega)

theorem follower_of_toNat {byte : UInt8} {n : Nat} (h : byte.toNat = n % 0x40 + 0x80) :
    follower n = byte := by
  rw [← UInt8.toNat_inj, toNat_follower, h]

theorem ofNat_of_toNat {byte : UInt8} {n : Nat} (h : byte.toNat = n) : UInt8.ofNat n = byte := by
  rw [← h, UInt8.ofNat_toNat]

/-- The number of a character leaves out the surrogates. -/
theorem toNat_cases (c : Char) : c.toNat < 0xD800 ∨ 0xDFFF < c.toNat ∧ c.toNat < 0x110000 := c.valid

theorem toNat_ofNat_of_cases {n : Nat} (h : n < 0xD800 ∨ 0xDFFF < n ∧ n < 0x110000) :
    (Char.ofNat n).toNat = n := by
  rw [Char.ofNat, dif_pos h]
  rfl

/-! ### The bytes of a character by its number -/

variable {c : Char} {n : Nat}

theorem utf8EncodeChar_one (hc : c.toNat = n) (h : n < 0x80) :
    String.utf8EncodeChar c = [UInt8.ofNat n] := by
  have hval : c.val.toNat = n := hc
  rw [String.utf8EncodeChar, hval, if_pos (by omega)]

theorem utf8EncodeChar_two (hc : c.toNat = n) (h : 0x80 ≤ n) (h' : n < 0x800) :
    String.utf8EncodeChar c = [UInt8.ofNat (n / 0x40 + 0xC0), follower n] := by
  have hval : c.val.toNat = n := hc
  have hlead : n / 64 % 0x20 = n / 0x40 := by omega
  rw [String.utf8EncodeChar, hval, if_neg (by omega), if_pos (by omega), hlead, follower]

theorem utf8EncodeChar_three (hc : c.toNat = n) (h : 0x800 ≤ n) (h' : n < 0x10000) :
    String.utf8EncodeChar c =
      [UInt8.ofNat (n / 0x1000 + 0xE0), follower (n / 0x40), follower n] := by
  have hval : c.val.toNat = n := hc
  have hlead : n / 4096 % 0x10 = n / 0x1000 := by omega
  rw [String.utf8EncodeChar, hval, if_neg (by omega), if_neg (by omega), if_pos (by omega), hlead,
    follower, follower]

theorem utf8EncodeChar_four (hc : c.toNat = n) (h : 0x10000 ≤ n) (h' : n < 0x110000) :
    String.utf8EncodeChar c =
      [UInt8.ofNat (n / 0x40000 + 0xF0), follower (n / 0x1000), follower (n / 0x40), follower n] := by
  have hval : c.val.toNat = n := hc
  have hlead : n / 262144 % 0x08 = n / 0x40000 := by omega
  rw [String.utf8EncodeChar, hval, if_neg (by omega), if_neg (by omega), if_neg (by omega), hlead,
    follower, follower, follower]

/-! ### Reading what was written -/

theorem readFollowers_follower {value low high : Nat} (hlow : low ≤ n % 0x40 + 0x80)
    (hhigh : n % 0x40 + 0x80 ≤ high) (intervals : List (Nat × Nat)) (bytes : List UInt8)
    {result : Nat} (h : readFollowers (value * 64 + n % 0x40) intervals bytes = .ok result) :
    readFollowers value ((low, high) :: intervals) (follower n :: bytes) = .ok result := by
  rw [readFollowers, toNat_follower, if_pos ⟨hlow, hhigh⟩, Nat.add_sub_cancel, h]

theorem readFirst_of_followers {lead : UInt8} {rest : List UInt8} {value number : Nat}
    {intervals : List (Nat × Nat)} (hlead : followers? lead.toNat = some (value, intervals))
    (hrest : readFollowers value intervals rest = .ok number) :
    readFirst lead rest = .ok (Char.ofNat number, intervals.length) := by
  rw [readFirst, hlead]
  simp only [hrest]

theorem followers?_lead_one (h : n < 0x80) : followers? (UInt8.ofNat n).toNat = some (n, []) := by
  rw [toNat_ofNat_of_lt (by omega), followers?, if_pos h]

theorem followers?_lead_two (h : 0x80 ≤ n) (h' : n < 0x800) :
    followers? (UInt8.ofNat (n / 0x40 + 0xC0)).toNat = some (n / 0x40, [(0x80, 0xBF)]) := by
  rw [toNat_ofNat_of_lt (by omega), followers?, if_neg (by omega), if_neg (by omega),
    if_pos (by omega), Nat.add_sub_cancel]

theorem followers?_lead_three (h : n < 0x10000) :
    followers? (UInt8.ofNat (n / 0x1000 + 0xE0)).toNat =
      some (n / 0x1000, [(if n / 0x1000 + 0xE0 = 0xE0 then 0xA0 else 0x80,
        if n / 0x1000 + 0xE0 = 0xED then 0x9F else 0xBF), (0x80, 0xBF)]) := by
  rw [toNat_ofNat_of_lt (by omega), followers?, if_neg (by omega), if_neg (by omega),
    if_neg (by omega), if_pos (by omega), Nat.add_sub_cancel]

theorem followers?_lead_four (h : n < 0x110000) :
    followers? (UInt8.ofNat (n / 0x40000 + 0xF0)).toNat =
      some (n / 0x40000, [(if n / 0x40000 + 0xF0 = 0xF0 then 0x90 else 0x80,
        if n / 0x40000 + 0xF0 = 0xF4 then 0x8F else 0xBF), (0x80, 0xBF), (0x80, 0xBF)]) := by
  rw [toNat_ofNat_of_lt (by omega), followers?, if_neg (by omega), if_neg (by omega),
    if_neg (by omega), if_neg (by omega), if_pos (by omega), Nat.add_sub_cancel]

/-- A written character is read, whatever comes behind it. -/
theorem readFirst_utf8EncodeChar (c : Char) (rest : List UInt8) :
    ∃ lead tail, String.utf8EncodeChar c = lead :: tail ∧
      readFirst lead (tail ++ rest) = .ok (c, tail.length) := by
  have hvalid := toNat_cases c
  generalize hn : c.toNat = n at hvalid
  have hc : Char.ofNat n = c := by rw [← hn, Char.ofNat_toNat]
  rw [← hc]
  by_cases hone : n < 0x80
  · refine ⟨_, _, by rw [hc]; exact utf8EncodeChar_one hn hone, ?_⟩
    exact readFirst_of_followers (followers?_lead_one hone) (by rfl)
  by_cases htwo : n < 0x800
  · refine ⟨_, _, by rw [hc]; exact utf8EncodeChar_two hn (by omega) htwo, ?_⟩
    have hnumber : n / 0x40 * 64 + n % 0x40 = n := by omega
    refine readFirst_of_followers (followers?_lead_two (by omega) htwo)
      (readFollowers_follower (by omega) (by omega) _ _ ?_)
    rw [readFollowers, hnumber]
  by_cases hthree : n < 0x10000
  · refine ⟨_, _, by rw [hc]; exact utf8EncodeChar_three hn (by omega) hthree, ?_⟩
    -- The interval of the second byte keeps out shorter forms and surrogates.
    have hlow : (if n / 0x1000 + 0xE0 = 0xE0 then 0xA0 else 0x80) ≤ n / 0x40 % 0x40 + 0x80 := by
      split <;> omega
    have hhigh : n / 0x40 % 0x40 + 0x80 ≤ if n / 0x1000 + 0xE0 = 0xED then 0x9F else 0xBF := by
      split <;> omega
    have hnumber : (n / 0x1000 * 64 + n / 0x40 % 0x40) * 64 + n % 0x40 = n := by omega
    refine readFirst_of_followers (followers?_lead_three hthree)
      (readFollowers_follower hlow hhigh _ _ (readFollowers_follower (by omega) (by omega) _ _ ?_))
    rw [readFollowers, hnumber]
  · have hfour : n < 0x110000 := by omega
    refine ⟨_, _, by rw [hc]; exact utf8EncodeChar_four hn (by omega) hfour, ?_⟩
    -- Here it keeps out shorter forms and numbers that are too great.
    have hlow : (if n / 0x40000 + 0xF0 = 0xF0 then 0x90 else 0x80) ≤ n / 0x1000 % 0x40 + 0x80 := by
      split <;> omega
    have hhigh : n / 0x1000 % 0x40 + 0x80 ≤ if n / 0x40000 + 0xF0 = 0xF4 then 0x8F else 0xBF := by
      split <;> omega
    have hnumber : ((n / 0x40000 * 64 + n / 0x1000 % 0x40) * 64 + n / 0x40 % 0x40) * 64 +
        n % 0x40 = n := by omega
    refine readFirst_of_followers (followers?_lead_four hfour)
      (readFollowers_follower hlow hhigh _ _ (readFollowers_follower (by omega) (by omega) _ _
        (readFollowers_follower (by omega) (by omega) _ _ ?_)))
    rw [readFollowers, hnumber]

/-! ### Writing what was read -/

theorem readFollowers_eq_ok {value number low high : Nat} {intervals : List (Nat × Nat)}
    {bytes : List UInt8}
    (h : readFollowers value ((low, high) :: intervals) bytes = .ok number) :
    ∃ byte more, bytes = byte :: more ∧ low ≤ byte.toNat ∧ byte.toNat ≤ high ∧
      readFollowers (value * 64 + (byte.toNat - 0x80)) intervals more = .ok number := by
  cases bytes with
  | nil => cases h
  | cons byte more =>
    rw [readFollowers] at h
    split at h
    · rename_i hbyte
      refine ⟨byte, more, rfl, hbyte.1, hbyte.2, ?_⟩
      cases hmore : readFollowers (value * 64 + (byte.toNat - 0x80)) intervals more with
      | error flaw => rw [hmore] at h; cases h
      | ok result => rw [hmore] at h; exact h
    · cases h

theorem readFirst_eq_ok {lead : UInt8} {rest : List UInt8} {count : Nat}
    (h : readFirst lead rest = .ok (c, count)) :
    ∃ value intervals number, followers? lead.toNat = some (value, intervals) ∧
      readFollowers value intervals rest = .ok number ∧ c = Char.ofNat number ∧
        count = intervals.length := by
  rw [readFirst] at h
  cases hlead : followers? lead.toNat with
  | none => rw [hlead] at h; cases h
  | some announced =>
    obtain ⟨value, intervals⟩ := announced
    rw [hlead] at h
    simp only at h
    cases hrest : readFollowers value intervals rest with
    | error flaw => rw [hrest] at h; cases h
    | ok number =>
      rw [hrest] at h
      cases h
      exact ⟨value, intervals, number, rfl, hrest, rfl, rfl⟩

theorem utf8EncodeChar_of_two {lead last : UInt8} (hlead : 0xC2 ≤ lead.toNat)
    (hlead' : lead.toNat < 0xE0) (hlow : 0x80 ≤ last.toNat) (hhigh : last.toNat ≤ 0xBF) :
    String.utf8EncodeChar (Char.ofNat ((lead.toNat - 0xC0) * 64 + (last.toNat - 0x80))) =
      [lead, last] := by
  generalize hn : (lead.toNat - 0xC0) * 64 + (last.toNat - 0x80) = n
  have hlast : follower n = last := follower_of_toNat (by omega)
  have hfirst : UInt8.ofNat (n / 0x40 + 0xC0) = lead := ofNat_of_toNat (by omega)
  have hchar := toNat_ofNat_of_cases (n := n) (Or.inl (by omega))
  rw [utf8EncodeChar_two hchar (by omega) (by omega), hfirst, hlast]

/-- The second byte is such that the number is neither too small for its form nor a surrogate. -/
theorem utf8EncodeChar_of_three {lead second last : UInt8} (hlead : 0xE0 ≤ lead.toNat)
    (hlead' : lead.toNat < 0xF0) (hlow : (if lead.toNat = 0xE0 then 0xA0 else 0x80) ≤ second.toNat)
    (hhigh : second.toNat ≤ if lead.toNat = 0xED then 0x9F else 0xBF) (hlow' : 0x80 ≤ last.toNat)
    (hhigh' : last.toNat ≤ 0xBF) :
    String.utf8EncodeChar (Char.ofNat
      (((lead.toNat - 0xE0) * 64 + (second.toNat - 0x80)) * 64 + (last.toNat - 0x80))) =
        [lead, second, last] := by
  generalize hn : ((lead.toNat - 0xE0) * 64 + (second.toNat - 0x80)) * 64 + (last.toNat - 0x80) = n
  have hmin : 0x80 ≤ second.toNat ∧ 0x800 ≤ n := by split at hlow <;> omega
  have hmax : second.toNat ≤ 0xBF ∧ (n < 0xD800 ∨ 0xDFFF < n) := by split at hhigh <;> omega
  have hlast : follower n = last := follower_of_toNat (by omega)
  have hsecond : follower (n / 0x40) = second := follower_of_toNat (by omega)
  have hfirst : UInt8.ofNat (n / 0x1000 + 0xE0) = lead := ofNat_of_toNat (by omega)
  have hchar := toNat_ofNat_of_cases (n := n) (by omega)
  rw [utf8EncodeChar_three hchar hmin.2 (by omega), hfirst, hsecond, hlast]

theorem utf8EncodeChar_of_four {lead second third last : UInt8} (hlead : 0xF0 ≤ lead.toNat)
    (hlead' : lead.toNat < 0xF5) (hlow : (if lead.toNat = 0xF0 then 0x90 else 0x80) ≤ second.toNat)
    (hhigh : second.toNat ≤ if lead.toNat = 0xF4 then 0x8F else 0xBF) (hlow' : 0x80 ≤ third.toNat)
    (hhigh' : third.toNat ≤ 0xBF) (hlow'' : 0x80 ≤ last.toNat) (hhigh'' : last.toNat ≤ 0xBF) :
    String.utf8EncodeChar (Char.ofNat
      ((((lead.toNat - 0xF0) * 64 + (second.toNat - 0x80)) * 64 + (third.toNat - 0x80)) * 64 +
        (last.toNat - 0x80))) = [lead, second, third, last] := by
  generalize hn : (((lead.toNat - 0xF0) * 64 + (second.toNat - 0x80)) * 64 +
    (third.toNat - 0x80)) * 64 + (last.toNat - 0x80) = n
  have hmin : 0x80 ≤ second.toNat ∧ 0x10000 ≤ n := by split at hlow <;> omega
  have hmax : second.toNat ≤ 0xBF ∧ n < 0x110000 := by split at hhigh <;> omega
  have hlast : follower n = last := follower_of_toNat (by omega)
  have hthird : follower (n / 0x40) = third := follower_of_toNat (by omega)
  have hsecond : follower (n / 0x1000) = second := follower_of_toNat (by omega)
  have hfirst : UInt8.ofNat (n / 0x40000 + 0xF0) = lead := ofNat_of_toNat (by omega)
  have hchar := toNat_ofNat_of_cases (n := n) (by omega)
  rw [utf8EncodeChar_four hchar hmin.2 hmax.2, hfirst, hsecond, hthird, hlast]

/-- A character that was read is written as the bytes that it was read from. -/
theorem utf8EncodeChar_of_readFirst {lead : UInt8} {rest : List UInt8} {count : Nat}
    (h : readFirst lead rest = .ok (c, count)) :
    ∃ taken more, rest = taken ++ more ∧ taken.length = count ∧
      String.utf8EncodeChar c = lead :: taken := by
  obtain ⟨value, intervals, number, hlead, hrest, rfl, rfl⟩ := readFirst_eq_ok h
  rw [followers?] at hlead
  -- The cases are those of the first byte; each byte behind it lies in its interval.
  split at hlead
  · obtain ⟨rfl, rfl⟩ := Prod.mk.inj (Option.some.inj hlead)
    rw [readFollowers] at hrest
    obtain rfl := Except.ok.inj hrest
    have hchar := toNat_ofNat_of_cases (n := lead.toNat) (Or.inl (by omega))
    refine ⟨[], rest, rfl, rfl, ?_⟩
    rw [utf8EncodeChar_one hchar (by omega), UInt8.ofNat_toNat]
  split at hlead
  · cases hlead
  split at hlead
  · obtain ⟨rfl, rfl⟩ := Prod.mk.inj (Option.some.inj hlead)
    obtain ⟨last, more, rfl, hlow, hhigh, hrest⟩ := readFollowers_eq_ok hrest
    rw [readFollowers] at hrest
    refine ⟨[last], more, rfl, rfl, ?_⟩
    rw [← Except.ok.inj hrest, utf8EncodeChar_of_two (by omega) (by omega) hlow hhigh]
  split at hlead
  · obtain ⟨rfl, rfl⟩ := Prod.mk.inj (Option.some.inj hlead)
    obtain ⟨second, more, rfl, hlow, hhigh, hrest⟩ := readFollowers_eq_ok hrest
    obtain ⟨last, more, rfl, hlow', hhigh', hrest⟩ := readFollowers_eq_ok hrest
    rw [readFollowers] at hrest
    refine ⟨[second, last], more, rfl, rfl, ?_⟩
    rw [← Except.ok.inj hrest,
      utf8EncodeChar_of_three (by omega) (by omega) hlow hhigh hlow' hhigh']
  split at hlead
  · obtain ⟨rfl, rfl⟩ := Prod.mk.inj (Option.some.inj hlead)
    obtain ⟨second, more, rfl, hlow, hhigh, hrest⟩ := readFollowers_eq_ok hrest
    obtain ⟨third, more, rfl, hlow', hhigh', hrest⟩ := readFollowers_eq_ok hrest
    obtain ⟨last, more, rfl, hlow'', hhigh'', hrest⟩ := readFollowers_eq_ok hrest
    rw [readFollowers] at hrest
    refine ⟨[second, third, last], more, rfl, rfl, ?_⟩
    rw [← Except.ok.inj hrest,
      utf8EncodeChar_of_four (by omega) (by omega) hlow hhigh hlow' hhigh' hlow'' hhigh'']
  · cases hlead

end Letterhead.Utf8
