import TgCli.Infrastructure.MtprotoAuthHonest

/-!
# The factors of `pq`

`pq_factorize` splits off a factor two at once, and for an odd number it runs Pollard's rho.  What
rho finds is a greatest common divisor with `pq`, so it divides it, and the two checks behind the
loop leave a proper divisor whose cofactor fits 32 bits.  The factor two has no such checks: the
cofactor is cut to 32 bits, and of `2` itself the "factors" are 1 and 2 (`factors_iff`).

`pq` comes as a byte string of any length, and `be_to_uint64` keeps the last eight bytes of it.
`encodesPq_iff` follows the number through the conversion, the factorisation and the three
encodings into the request: what the request says is what the server sent exactly if the number
fits 64 bits and its cofactor was not cut.
-/

namespace TgCli.Infrastructure

open Option Lib TgCli.Core

/-! ## Pollard's rho -/

theorem euclid_eq_gcd (a b : ℕ) : euclid a b = a.gcd b := by
  induction b using Nat.strong_induction_on generalizing a with
  | _ b ih =>
    rw [euclid]
    split_ifs with hb
    · rw [hb, Nat.gcd_zero_right]
    · rw [ih (a % b) (Nat.mod_lt _ (Nat.pos_of_ne_zero hb)), Nat.gcd_comm b,
        ← Nat.gcd_rec, Nat.gcd_comm]

theorem ite_dvd {c : Prop} [Decidable c] {a b n : ℕ} (ha : a ∣ n) (hb : b ∣ n) :
    (if c then a else b) ∣ n := by
  split_ifs
  · exact ha
  · exact hb

theorem rhoLoop_dvd {pq d : ℕ} (h : d ∣ pq) (c n x y : ℕ) : rhoLoop pq c n x y d ∣ pq := by
  induction n generalizing x y d with
  | zero => exact h
  | succ n ih =>
    rw [rhoLoop]
    refine ite_dvd h (ite_dvd h (ih ?_ _ _))
    rw [euclid_eq_gcd]
    exact Nat.gcd_dvd_right _ _

theorem factors_of_dvd {d n : ℕ} (hn : 0 < n) (hdvd : d ∣ n) (h1 : d ≠ 1) (hd : d ≠ n) :
    1 < min d (n / d) ∧ min d (n / d) * max d (n / d) = n := by
  obtain ⟨k, rfl⟩ := hdvd
  have hdpos : 0 < d := Nat.pos_of_mul_pos_right hn
  have hkpos : 0 < k := Nat.pos_of_mul_pos_left hn
  have hk : k ≠ 1 := by
    rintro rfl
    exact hd (Nat.mul_one d).symm
  rw [Nat.mul_div_cancel_left k hdpos, min_mul_max]
  exact ⟨lt_min (by omega) (by omega), rfl⟩

/-- The outputs are factors in ascending order. -/
structure Factors (pq : ℕ) (p q : UInt32) : Prop where
  one_lt : 1 < p.toNat
  le : p.toNat ≤ q.toNat
  mul : p.toNat * q.toNat = pq

theorem rhoAttempts_factors {pq : ℕ} (hpq : 0 < pq) {cs : List ℕ} {p q : UInt32}
    (h : rhoAttempts pq cs = some (p, q)) : Factors pq p q := by
  induction cs with
  | nil => cases h
  | cons c cs ih =>
    rw [rhoAttempts] at h
    have hdvd := rhoLoop_dvd (one_dvd pq) c 1000000 2 2
    generalize rhoLoop pq c 1000000 2 2 1 = d at h hdvd
    by_cases hproper : d ≠ 1 ∧ d ≠ pq
    · obtain ⟨hone, hmul⟩ := factors_of_dvd hpq hdvd hproper.1 hproper.2
      rw [if_pos hproper] at h
      dsimp only at h
      split_ifs at h with hbig
      rw [not_or, not_lt, not_lt] at hbig
      obtain ⟨rfl, rfl⟩ := Prod.mk.inj (some.inj h)
      have hp : (UInt32.ofNat (min d (pq / d))).toNat = min d (pq / d) :=
        UInt32.toNat_ofNat_of_lt' (Nat.lt_succ_of_le hbig.1)
      have hq : (UInt32.ofNat (max d (pq / d))).toNat = max d (pq / d) :=
        UInt32.toNat_ofNat_of_lt' (Nat.lt_succ_of_le hbig.2)
      refine ⟨?_, ?_, ?_⟩
      · rwa [hp]
      · rw [hp, hq]
        exact min_le_max
      · rwa [hp, hq]
    · rw [if_neg hproper] at h
      exact ih h

theorem pqFactorize_even {pq : UInt64} (heven : pq.toNat % 2 = 0) (hpos : pq.toNat ≠ 0) :
    ∃ p q : UInt32, pqFactorize pq = some (p, q) ∧
      p.toNat = min 2 (pq.toNat / 2 % 2 ^ 32) ∧ q.toNat = max 2 (pq.toNat / 2 % 2 ^ 32) := by
  have hsmall : ¬ pq < 2 := by
    rw [UInt64.lt_iff_toNat_lt]
    show ¬ pq.toNat < 2
    omega
  have hmod : pq % 2 = 0 := by
    rw [← UInt64.toNat_inj, UInt64.toNat_mod]
    exact heven
  have hq : (UInt32.ofNat (pq.toNat / 2)).toNat = pq.toNat / 2 % 2 ^ 32 := UInt32.toNat_ofNat'
  rw [pqFactorize, if_neg hsmall, if_pos hmod]
  by_cases hlt : 2 > UInt32.ofNat (pq.toNat / 2)
  · have hlt' : pq.toNat / 2 % 2 ^ 32 < 2 := hq ▸ UInt32.lt_iff_toNat_lt.mp hlt
    rw [if_pos hlt]
    exact ⟨_, _, rfl, hq.trans (min_eq_right hlt'.le).symm, (max_eq_left hlt'.le).symm⟩
  · have hge : 2 ≤ pq.toNat / 2 % 2 ^ 32 :=
      hq ▸ not_lt.mp fun h => hlt (UInt32.lt_iff_toNat_lt.mpr h)
    rw [if_neg hlt]
    exact ⟨_, _, rfl, (min_eq_left hge).symm, hq.trans (max_eq_right hge).symm⟩

theorem pqFactorize_odd {pq : UInt64} (hodd : pq.toNat % 2 = 1) {p q : UInt32}
    (h : pqFactorize pq = some (p, q)) : Factors pq.toNat p q := by
  have hmod : pq % 2 ≠ 0 := by
    intro hzero
    rw [← UInt64.toNat_inj, UInt64.toNat_mod] at hzero
    exact absurd (hodd.symm.trans hzero) (by decide)
  rw [pqFactorize] at h
  split_ifs at h
  exact rhoAttempts_factors (by omega) h

/-- **What `pq_factorize` returns are the factors, except for an even number that is 2 or whose half
does not fit 32 bits.** -/
theorem factors_iff (pq : UInt64) :
    (∀ p q, pqFactorize pq = some (p, q) → Factors pq.toNat p q) ↔
      pq.toNat % 2 = 1 ∨ pq.toNat = 0 ∨ 2 < pq.toNat ∧ pq.toNat < 2 ^ 33 := by
  rcases Nat.mod_two_eq_zero_or_one pq.toNat with heven | hodd
  · by_cases hzero : pq.toNat = 0
    · refine iff_of_true (fun p q h => ?_) (.inr (.inl hzero))
      rw [pqFactorize, if_pos (UInt64.lt_iff_toNat_lt.mpr (hzero ▸ by decide))] at h
      cases h
    · obtain ⟨p, q, hrun, hp, hq⟩ := pqFactorize_even heven hzero
      constructor
      · intro h
        obtain ⟨hone, -, hmul⟩ := h p q hrun
        rw [hp, hq, min_mul_max] at hmul
        rw [hp, lt_min_iff] at hone
        omega
      · rintro hrange p' q' hrun'
        obtain ⟨rfl, rfl⟩ := Prod.mk.inj (some.inj (hrun.symm.trans hrun'))
        refine ⟨?_, ?_, ?_⟩
        · rw [hp, lt_min_iff]
          omega
        · rw [hp, hq]
          exact min_le_max
        · rw [hp, hq, min_mul_max]
          omega
  · exact iff_of_true (fun p q h => pqFactorize_odd hodd h) (.inl hodd)

/-- The factors of 8589934598 are taken to be 2 and 3. -/
theorem even_cofactor_cut :
    pqFactorize 8589934598 = some (2, 3) ∧
      ¬ ∀ (pq : UInt64) (p q : UInt32), pqFactorize pq = some (p, q) → Factors pq.toNat p q := by
  have hrun : pqFactorize 8589934598 = some (2, 3) := by decide
  exact ⟨hrun, fun h => absurd (h _ _ _ hrun).mul (by decide)⟩

/-! ## From the answer to the request -/

def sentPq (buf : Bytes) : Option Bytes :=
  (tlReadBytes (afterNonces buf)).1

/-- `pq`, `p` and `q` as they stand in `p_q_inner_data`. -/
def innerFactors (data : Bytes) : Option (Bytes × Bytes × Bytes) := do
  let crc := tlReadUint32 (tlReaderInit data)
  if crc.1 ≠ crcPQInnerData then none
  let pqIn := tlReadBytes crc.2
  let pq ← pqIn.1
  let pIn := tlReadBytes pqIn.2
  let p ← pIn.1
  let q ← (tlReadBytes pIn.2).1
  some (pq, p, q)

/-- `p` and `q` as they stand in `req_DH_params`. -/
def requestFactors (buf : Bytes) : Option (Bytes × Bytes) := do
  let crc := tlReadUint32 (tlReaderInit buf)
  if crc.1 ≠ crcReqDHParams then none
  let pIn := tlReadBytes (tlReadInt128 (tlReadInt128 crc.2).2).2
  let p ← pIn.1
  let q ← (tlReadBytes pIn.2).1
  some (p, q)

/-- The inner data and the request say the same of `pq` as the server, and give two factors of
it. -/
def EncodesPq (sent inner request : Bytes) : Prop :=
  ∃ pq p q, innerFactors inner = some (pq, p, q) ∧ requestFactors request = some (p, q) ∧
    beNat pq = beNat sent ∧ beNat p * beNat q = beNat sent

theorem innerFactors_pQInnerData (ctx : AuthKeyCtx) :
    innerFactors (pQInnerData ctx) =
      some (uint64ToBe ctx.pq, uint32ToBe ctx.p, uint32ToBe ctx.q) := by
  have hrest := rest_pQInnerData ctx []
  rw [List.append_nil] at hrest
  obtain ⟨h1, r1⟩ := tlReadUint32_of_rest hrest
  obtain ⟨h2, r2⟩ := tlReadBytes_of_rest (length_uint64ToBe_lt _) r1
  obtain ⟨h3, r3⟩ := tlReadBytes_of_rest (length_uint32ToBe_lt _) r2
  obtain ⟨h4, -⟩ := tlReadBytes_of_rest (length_uint32ToBe_lt _) r3
  simp only [innerFactors, bind_eq_bind, bind_some, h1, h2, h3, h4, ne_eq,
    not_true_eq_false, if_false]

theorem requestFactors_reqDHParams (c : Crypto) (ctx : AuthKeyCtx) (encrypted : Bytes) :
    requestFactors (reqDHParams c ctx encrypted) = some (uint32ToBe ctx.p, uint32ToBe ctx.q) := by
  obtain ⟨h1, r1⟩ := tlReadUint32_of_rest (rest_reqDHParams c ctx encrypted)
  obtain ⟨-, r2⟩ := tlReadInt128_of_rest r1
  obtain ⟨-, r3⟩ := tlReadInt128_of_rest r2
  obtain ⟨h4, r4⟩ := tlReadBytes_of_rest (length_uint32ToBe_lt _) r3
  obtain ⟨h5, -⟩ := tlReadBytes_of_rest (length_uint32ToBe_lt _) r4
  simp only [requestFactors, bind_eq_bind, bind_some, h1, h4, h5, ne_eq,
    not_true_eq_false, if_false]

theorem encodesPq_iff_numbers (c : Crypto) (ctx : AuthKeyCtx) (sent encrypted : Bytes) :
    EncodesPq sent (pQInnerData ctx) (reqDHParams c ctx encrypted) ↔
      ctx.pq.toNat = beNat sent ∧ ctx.p.toNat * ctx.q.toNat = beNat sent := by
  rw [← beNat_uint64ToBe, ← beNat_uint32ToBe, ← beNat_uint32ToBe]
  constructor
  · rintro ⟨pq, p, q, hinner, -, hpq, hmul⟩
    rw [innerFactors_pQInnerData] at hinner
    cases hinner
    exact ⟨hpq, hmul⟩
  · rintro ⟨hpq, hmul⟩
    exact ⟨_, _, _, innerFactors_pQInnerData ctx, requestFactors_reqDHParams c ctx encrypted, hpq,
      hmul⟩

theorem mul_pqFactorize_iff {pq : UInt64} {p q : UInt32} (h : pqFactorize pq = some (p, q)) :
    p.toNat * q.toNat = pq.toNat ↔ pq.toNat % 2 = 1 ∨ pq.toNat < 2 ^ 33 := by
  rcases Nat.mod_two_eq_zero_or_one pq.toNat with heven | hodd
  · have hpos : pq.toNat ≠ 0 := by
      intro hzero
      rw [pqFactorize, if_pos (UInt64.lt_iff_toNat_lt.mpr (hzero ▸ by decide))] at h
      cases h
    obtain ⟨p', q', hrun, hp, hq⟩ := pqFactorize_even heven hpos
    obtain ⟨rfl, rfl⟩ := Prod.mk.inj (some.inj (hrun.symm.trans h))
    rw [hp, hq, min_mul_max]
    omega
  · exact iff_of_true (pqFactorize_odd hodd h).mul (.inl hodd)

/-- **The request is about the number that the server sent exactly if that fits 64 bits and is odd
or has a half of 32 bits.** -/
theorem encodesPq_iff {c : Crypto} {e : Exchange} {ctx ctx₁ ctx₂ : AuthKeyCtx}
    {buf sent encrypted : Bytes} (hread : readResPQ c ctx buf = some ctx₁)
    (hsent : sentPq buf = some sent) (hgo : prepareReqDh c e ctx₁ = some (ctx₂, encrypted)) :
    EncodesPq sent (pQInnerData ctx₂) (reqDHParams c ctx₂ encrypted) ↔
      beNat sent < 2 ^ 64 ∧ (beNat sent % 2 = 1 ∨ beNat sent < 2 ^ 33) := by
  obtain ⟨-, -, pq, hpq, -, -, rfl⟩ := readResPQ_eq_some.mp hread
  obtain rfl : pq = sent := some.inj (hpq.symm.trans hsent)
  obtain ⟨⟨p, q⟩, hfac, rfl, -⟩ := prepareReqDh_eq_some.mp hgo
  rw [encodesPq_iff_numbers]
  have hmul := mul_pqFactorize_iff hfac
  have hconv := toNat_beToUint64 pq
  constructor
  · rintro ⟨hword, hprod⟩
    rw [← hword] at hprod ⊢
    exact ⟨(beToUint64 pq).toNat_lt, hmul.mp hprod⟩
  · rintro ⟨hlt, hhalf⟩
    have hword : (beToUint64 pq).toNat = beNat pq := by rw [hconv, Nat.mod_eq_of_lt hlt]
    rw [← hword] at hhalf ⊢
    exact ⟨rfl, hmul.mpr hhalf⟩

/-! ## Two answers -/

def demoResPQ (sent : Bytes) : Bytes :=
  u32Bytes crcResPQ ++ (demoClient.nonce.1 ++ ((toBlock 16 [9]).1 ++ (tlBytes sent ++
    (u32Bytes tlVector ++ (u32Bytes 1 ++ (u64Bytes demoCrypto.serverKeyFingerprint ++ []))))))

def demoCtx (sent : Bytes) : AuthKeyCtx :=
  { authKeyCtxInit with
    nonce := demoClient.nonce, serverNonce := toBlock 16 [9], pq := beToUint64 sent }

theorem readResPQ_demoResPQ (sent : Bytes) (hlen : sent.length < 2 ^ 24) :
    readResPQ demoCrypto { authKeyCtxInit with nonce := demoClient.nonce } (demoResPQ sent) =
      some (demoCtx sent) ∧ sentPq (demoResPQ sent) = some sent := by
  obtain ⟨hcrc, hnonce, hsn, hrest⟩ := read_header (demoResPQ sent) rfl
  obtain ⟨hpq, r1⟩ := tlReadBytes_of_rest hlen hrest
  obtain ⟨-, r2⟩ := tlReadUint32_of_rest r1
  obtain ⟨hcount, r3⟩ := tlReadUint32_of_rest r2
  obtain ⟨hfp, -⟩ := tlReadUint64_of_rest r3
  refine ⟨readResPQ_eq_some.mpr ⟨hcrc, hnonce, sent, hpq, ?_, ?_, ?_⟩, hpq⟩
  · rw [hcount]
    decide
  · rw [hcount]
    show (decide _ || _) = true
    rw [decide_eq_true hfp]
    rfl
  · rw [hsn]
    rfl

theorem prepareReqDh_demoCtx (sent : Bytes) (h : beToUint64 sent = 6) :
    ∃ encrypted, prepareReqDh demoCrypto demoClient (demoCtx sent) =
      some ({ demoCtx sent with p := 2, q := 3, newNonce := demoClient.newNonce }, encrypted) := by
  obtain ⟨encrypted, henc⟩ := rsaSha1Encrypt_some demoCrypto_lawful demoClient.rsaPad
    (length_pQInnerData_le { demoCtx sent with p := 2, q := 3, newNonce := demoClient.newNonce })
  refine ⟨encrypted, prepareReqDh_eq_some.mpr ⟨(2, 3), ?_, rfl, henc⟩⟩
  show pqFactorize (beToUint64 sent) = some (2, 3)
  rw [h]
  decide

/-- Leading zeros make no difference. -/
theorem encodesPq_six :
    ∃ ctx₂ encrypted,
      prepareReqDh demoCrypto demoClient (demoCtx [0, 0, 6]) = some (ctx₂, encrypted) ∧
      EncodesPq [0, 0, 6] (pQInnerData ctx₂) (reqDHParams demoCrypto ctx₂ encrypted) := by
  obtain ⟨hread, hsent⟩ := readResPQ_demoResPQ [0, 0, 6] (by decide)
  obtain ⟨encrypted, hgo⟩ := prepareReqDh_demoCtx [0, 0, 6] (by decide)
  exact ⟨_, encrypted, hgo, (encodesPq_iff hread hsent hgo).mpr (by decide)⟩

/-- Of nine bytes the first is lost, and the request is about another number. -/
theorem nine_bytes_cut :
    ∃ ctx₁ ctx₂ encrypted,
      readResPQ demoCrypto { authKeyCtxInit with nonce := demoClient.nonce }
        (demoResPQ [1, 0, 0, 0, 0, 0, 0, 0, 6]) = some ctx₁ ∧
      sentPq (demoResPQ [1, 0, 0, 0, 0, 0, 0, 0, 6]) = some [1, 0, 0, 0, 0, 0, 0, 0, 6] ∧
      prepareReqDh demoCrypto demoClient ctx₁ = some (ctx₂, encrypted) ∧
      ¬ EncodesPq [1, 0, 0, 0, 0, 0, 0, 0, 6] (pQInnerData ctx₂)
        (reqDHParams demoCrypto ctx₂ encrypted) := by
  obtain ⟨hread, hsent⟩ := readResPQ_demoResPQ [1, 0, 0, 0, 0, 0, 0, 0, 6] (by decide)
  obtain ⟨encrypted, hgo⟩ := prepareReqDh_demoCtx [1, 0, 0, 0, 0, 0, 0, 0, 6] (by decide)
  refine ⟨_, _, encrypted, hread, hsent, hgo, fun h => ?_⟩
  have hnumber := ((encodesPq_iff_numbers ..).mp h).1
  exact absurd hnumber (by decide)

end TgCli.Infrastructure
