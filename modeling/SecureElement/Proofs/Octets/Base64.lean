import SecureElement.Octets.Base64

/-!
Base 64 read back.

Each symbol stands for its value (`value?_symbol`), so that what was written is read back, with padding
(`decode_encode`) and without (`decodeUnpadded_encodeWith`); and nothing but symbols and padding is read
(`symbol_of_decode`).
-/

namespace SecureElement.Base64

/-- The symbols of the standard alphabet and the sign that fills up. -/
def IsSymbol (b : UInt8) : Prop := b = pad ∨ (standard.value? b).isSome

instance : DecidablePred IsSymbol := fun _ => inferInstanceAs (Decidable (_ ∨ _))

/-- A symbol of either alphabet stands for its value, and is an ASCII character that does not fill up. -/
theorem symbol_spec {a : Alphabet} (either : a = standard ∨ a = urlSafe) {n : Nat} (small : n < 64) :
    a.value? (a.symbol n) = some n ∧ a.symbol n ≠ pad ∧ a.symbol n < 0x80 := by
  have every : ∀ a ∈ [standard, urlSafe], ∀ n : Fin 64,
      a.value? (a.symbol n) = some n.val ∧ a.symbol n ≠ pad ∧ a.symbol n < 0x80 := by decide
  exact every a (by simpa using either) ⟨n, small⟩

theorem value?_symbol {a : Alphabet} (either : a = standard ∨ a = urlSafe) {n : Nat} (small : n < 64) :
    a.value? (a.symbol n) = some n :=
  (symbol_spec either small).1

theorem symbol_ne_pad {n : Nat} (small : n < 64) : standard.symbol n ≠ pad :=
  (symbol_spec (.inl rfl) small).2.1

/-- Nothing but symbols and padding is read. -/
theorem symbol_of_decode {symbols bytes : Octets} (found : decode symbols = some bytes) :
    ∀ b ∈ symbols, IsSymbol b := by
  induction symbols using decode.induct generalizing bytes with
  | case1 => simp
  | case2 a b c d rest ih =>
      simp only [decode, Option.bind_eq_bind, Option.bind_eq_some_iff] at found
      obtain ⟨p, first, q, second, found⟩ := found
      have one : IsSymbol a := .inr (by simp [first])
      have two : IsSymbol b := .inr (by simp [second])
      split at found
      · next last =>
          obtain ⟨rfl, rfl⟩ := last
          have three : IsSymbol c := by
            split at found
            · next filled => exact .inl filled
            · obtain ⟨r, third, -⟩ := Option.bind_eq_some_iff.1 found
              exact .inr (by simp [third])
          have four : IsSymbol pad := .inl rfl
          simp [one, two, three, four]
      · obtain ⟨r, third, found⟩ := Option.bind_eq_some_iff.1 found
        obtain ⟨s, fourth, found⟩ := Option.bind_eq_some_iff.1 found
        obtain ⟨tail, later, -⟩ := Option.bind_eq_some_iff.1 found
        have three : IsSymbol c := .inr (by simp [third])
        have four : IsSymbol d := .inr (by simp [fourth])
        intro x member
        simp only [List.mem_cons] at member
        rcases member with rfl | rfl | rfl | rfl | member
        · exact one
        · exact two
        · exact three
        · exact four
        · exact ih later x member
  | case3 symbols some long =>
      unfold decode at found
      split at found
      · exact absurd rfl some
      · exact absurd rfl (long _ _ _ _ _)
      · cases found

/-! ### Reading what was written -/

theorem first_of_bits (x y : UInt8) :
    UInt8.ofNat (x.toNat / 4 * 4 + (x.toNat % 4 * 16 + y.toNat / 16) / 16) = x := by
  have bound := y.toNat_lt
  have whole : x.toNat / 4 * 4 + (x.toNat % 4 * 16 + y.toNat / 16) / 16 = x.toNat := by omega
  rw [whole, UInt8.ofNat_toNat]

theorem second_of_bits (x y z : UInt8) :
    UInt8.ofNat ((x.toNat % 4 * 16 + y.toNat / 16) % 16 * 16 +
      (y.toNat % 16 * 4 + z.toNat / 64) / 4) = y := by
  have bound := y.toNat_lt
  have bound' := z.toNat_lt
  have whole : (x.toNat % 4 * 16 + y.toNat / 16) % 16 * 16 +
      (y.toNat % 16 * 4 + z.toNat / 64) / 4 = y.toNat := by omega
  rw [whole, UInt8.ofNat_toNat]

theorem third_of_bits (y z : UInt8) :
    UInt8.ofNat ((y.toNat % 16 * 4 + z.toNat / 64) % 4 * 64 + z.toNat % 64) = z := by
  have bound := z.toNat_lt
  have whole : (y.toNat % 16 * 4 + z.toNat / 64) % 4 * 64 + z.toNat % 64 = z.toNat := by omega
  rw [whole, UInt8.ofNat_toNat]

/-- Padded symbols spell the octets that they were written for. -/
theorem decode_encode (bytes : Octets) : decode (encode bytes) = some bytes := by
  unfold encode
  induction bytes using encodeWith.induct with
  | case1 => rfl
  | case2 x =>
      have bound := x.toNat_lt
      have first := first_of_bits x 0
      simp only [UInt8.toNat_zero, Nat.zero_div, Nat.add_zero] at first
      simp only [encodeWith, List.cons_append, List.nil_append, decode, Option.bind_eq_bind]
      rw [value?_symbol (.inl rfl) (by omega), value?_symbol (.inl rfl) (by omega)]
      simp only [Option.bind_some, and_self, if_true, lastOctet?]
      rw [if_pos (by omega), first]
  | case3 x y =>
      have bound := x.toNat_lt
      have bound' := y.toNat_lt
      have second := second_of_bits x y 0
      simp only [UInt8.toNat_zero, Nat.zero_div, Nat.add_zero] at second
      simp only [encodeWith, List.cons_append, List.nil_append, decode, Option.bind_eq_bind]
      rw [value?_symbol (.inl rfl) (by omega), value?_symbol (.inl rfl) (by omega),
        value?_symbol (.inl rfl) (by omega)]
      simp only [Option.bind_some, and_self, if_true, lastOctets?]
      rw [if_neg (symbol_ne_pad (by omega)), if_pos (by omega), first_of_bits, second]
  | case4 x y z rest ih =>
      have bound := x.toNat_lt
      have bound' := y.toNat_lt
      have bound'' := z.toNat_lt
      have last : standard.symbol (z.toNat % 64) ≠ pad := symbol_ne_pad (by omega)
      simp only [encodeWith, decode, Option.bind_eq_bind]
      rw [value?_symbol (.inl rfl) (by omega), value?_symbol (.inl rfl) (by omega),
        value?_symbol (.inl rfl) (by omega), value?_symbol (.inl rfl) (by omega)]
      simp only [Option.bind_some, last, and_false, if_false, ih, first_of_bits, second_of_bits,
        third_of_bits]

theorem plain_of_isSymbol {b : UInt8} (symbol : IsSymbol b) :
    b < 0x80 ∧ b ≠ 0x0A ∧ b ≠ 0x0B ∧ b ≠ 0x0D := by
  have every : ∀ n : Fin 256, IsSymbol (UInt8.ofNat n.val) →
      UInt8.ofNat n.val < 0x80 ∧ UInt8.ofNat n.val ≠ 0x0A ∧ UInt8.ofNat n.val ≠ 0x0B ∧
        UInt8.ofNat n.val ≠ 0x0D := by decide +kernel
  have here := every ⟨b.toNat, b.toNat_lt⟩
  simp only [UInt8.ofNat_toNat] at here
  exact here symbol

theorem plain_encode (bytes : Octets) :
    ∀ b ∈ encode bytes, b < 0x80 ∧ b ≠ 0x0A ∧ b ≠ 0x0B ∧ b ≠ 0x0D := fun b member =>
  plain_of_isSymbol (symbol_of_decode (decode_encode bytes) b member)

/-! ### Symbols without padding -/

/-- The octets that symbols of an alphabet spell if short groups are left short. -/
def decodeUnpadded (a : Alphabet) : Octets → Option Octets
  | [] => some []
  | [_] => none
  | [p, q] => do lastOctet? (← a.value? p) (← a.value? q)
  | [p, q, r] => do lastOctets? (← a.value? p) (← a.value? q) (← a.value? r)
  | p :: q :: r :: s :: rest => do
      let p ← a.value? p
      let q ← a.value? q
      let r ← a.value? r
      let s ← a.value? s
      let tail ← decodeUnpadded a rest
      some (UInt8.ofNat (p * 4 + q / 16) :: UInt8.ofNat (q % 16 * 16 + r / 4) ::
        UInt8.ofNat (r % 4 * 64 + s) :: tail)

/-- Unpadded symbols spell the octets that they were written for. -/
theorem decodeUnpadded_encodeWith {a : Alphabet} (either : a = standard ∨ a = urlSafe) (bytes : Octets) :
    decodeUnpadded a (encodeWith a [] bytes) = some bytes := by
  induction bytes using encodeWith.induct with
  | case1 => rfl
  | case2 x =>
      have bound := x.toNat_lt
      have first := first_of_bits x 0
      simp only [UInt8.toNat_zero, Nat.zero_div, Nat.add_zero] at first
      simp only [encodeWith, List.append_nil, decodeUnpadded, Option.bind_eq_bind]
      rw [value?_symbol either (by omega), value?_symbol either (by omega)]
      simp only [Option.bind_some, lastOctet?]
      rw [if_pos (by omega), first]
  | case3 x y =>
      have bound := x.toNat_lt
      have bound' := y.toNat_lt
      have second := second_of_bits x y 0
      simp only [UInt8.toNat_zero, Nat.zero_div, Nat.add_zero] at second
      simp only [encodeWith, List.append_nil, decodeUnpadded, Option.bind_eq_bind]
      rw [value?_symbol either (by omega), value?_symbol either (by omega),
        value?_symbol either (by omega)]
      simp only [Option.bind_some, lastOctets?]
      rw [if_pos (by omega), first_of_bits, second]
  | case4 x y z rest ih =>
      have bound := x.toNat_lt
      have bound' := y.toNat_lt
      have bound'' := z.toNat_lt
      simp only [encodeWith, decodeUnpadded, Option.bind_eq_bind]
      rw [value?_symbol either (by omega), value?_symbol either (by omega),
        value?_symbol either (by omega), value?_symbol either (by omega)]
      simp only [Option.bind_some, ih, first_of_bits, second_of_bits, third_of_bits]

/-- What is written is made of symbols and of what fills up. -/
theorem exists_symbol_of_mem {a : Alphabet} {fill bytes : Octets} {b : UInt8}
    (member : b ∈ encodeWith a fill bytes) : b ∈ fill ∨ ∃ n < 64, b = a.symbol n := by
  induction bytes using encodeWith.induct with
  | case1 => cases member
  | case2 x =>
      have bound := x.toNat_lt
      simp only [encodeWith, List.mem_append, List.mem_cons, List.not_mem_nil, or_false] at member
      rcases member with ((rfl | rfl) | filled) | filled
      · exact .inr ⟨_, by omega, rfl⟩
      · exact .inr ⟨_, by omega, rfl⟩
      · exact .inl filled
      · exact .inl filled
  | case3 x y =>
      have bound := x.toNat_lt
      have bound' := y.toNat_lt
      simp only [encodeWith, List.mem_append, List.mem_cons, List.not_mem_nil, or_false] at member
      rcases member with (rfl | rfl | rfl) | filled
      · exact .inr ⟨_, by omega, rfl⟩
      · exact .inr ⟨_, by omega, rfl⟩
      · exact .inr ⟨_, by omega, rfl⟩
      · exact .inl filled
  | case4 x y z rest ih =>
      have bound := x.toNat_lt
      have bound' := y.toNat_lt
      have bound'' := z.toNat_lt
      simp only [encodeWith, List.mem_cons] at member
      rcases member with rfl | rfl | rfl | rfl | later
      · exact .inr ⟨_, by omega, rfl⟩
      · exact .inr ⟨_, by omega, rfl⟩
      · exact .inr ⟨_, by omega, rfl⟩
      · exact .inr ⟨_, by omega, rfl⟩
      · exact ih later

/-- Symbols for addresses and file names are ASCII characters, and none of them fills up. -/
theorem plain_encodeUrlSafe (bytes : Octets) : ∀ b ∈ encodeUrlSafe bytes, b < 0x80 ∧ b ≠ pad := by
  intro b member
  rcases exists_symbol_of_mem member with filled | ⟨n, small, rfl⟩
  · cases filled
  · obtain ⟨-, unfilled, ascii⟩ := symbol_spec (.inr rfl) small
    exact ⟨ascii, unfilled⟩

theorem length_encodeUrlSafe (bytes : Octets) :
    (encodeUrlSafe bytes).length = (4 * bytes.length + 2) / 3 := by
  unfold encodeUrlSafe
  induction bytes using encodeWith.induct with
  | case1 | case2 | case3 => simp [encodeWith]
  | case4 x y z rest ih =>
      simp only [encodeWith, List.length_cons, ih]
      omega

end SecureElement.Base64
