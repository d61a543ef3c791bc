import WarpMotor.Privacy.Checked

/-!
Where a mapped address lies. The bits of the network are the ones before the
length of the pool's prefix; those of the mask of the source are all others.
-/
namespace WarpMotor.Privacy

variable {w : Nat}

namespace Net

/-- The address has the bits of the network of the block. -/
def Covers (net : Net w) (bits : BitVec w) : Prop :=
  ∀ i < w, w - net.prefixLen ≤ i → bits.getLsbD i = net.addr.getLsbD i

theorem hostMask_getLsbD (net : Net w) (i : Nat) :
    net.hostMask.getLsbD i = decide (i < w - net.prefixLen) := by
  have fits := net.fits
  unfold hostMask
  split
  · next none_left => simp [none_left]
  · split
    · next all_left => simp [all_left]
    · -- a shift by the length of the prefix leaves ones in the host part alone
      next narrow =>
      rw [BitVec.getLsbD_ushiftRight, BitVec.getLsbD_allOnes, decide_eq_decide]
      omega

theorem networkMask_getLsbD (net : Net w) {i : Nat} (inside : i < w) :
    (~~~ net.hostMask).getLsbD i = decide (w - net.prefixLen ≤ i) := by
  rw [BitVec.getLsbD_not, hostMask_getLsbD, decide_eq_true inside, Bool.true_and,
    ← decide_not, decide_eq_decide]
  omega

theorem network_getLsbD (net : Net w) (i : Nat) :
    net.network.getLsbD i = (decide (w - net.prefixLen ≤ i) && net.addr.getLsbD i) := by
  unfold network
  rw [BitVec.getLsbD_and]
  by_cases inside : i < w
  · rw [net.networkMask_getLsbD inside, Bool.and_comm]
  · have beyond : net.addr.getLsbD i = false := BitVec.getLsbD_of_ge _ _ (by omega)
    simp [beyond]

/-- Being in the block as the mask of the source tests it. -/
theorem contains_iff (net : Net w) (bits : BitVec w) :
    net.Contains bits ↔ net.Covers bits := by
  have masked_bit : ∀ i < w, (bits &&& ~~~ net.hostMask).getLsbD i =
      (decide (w - net.prefixLen ≤ i) && bits.getLsbD i) := by
    intro i inside
    rw [BitVec.getLsbD_and, net.networkMask_getLsbD inside, Bool.and_comm]
  constructor
  · intro contained i inside network
    have same := congrArg (fun b => BitVec.getLsbD b i) contained
    rw [masked_bit i inside, network_getLsbD] at same
    simpa [network] using same
  · intro covered
    apply BitVec.eq_of_getLsbD_eq
    intro i inside
    rw [masked_bit i inside, network_getLsbD]
    by_cases network : w - net.prefixLen ≤ i
    · rw [covered i inside network]
    · simp [network]

end Net

section

variable (env : Env)

/-- The bits of a mapped address: the network from the pool, the host from the digest. -/
theorem mapIp_getLsbD (version : UInt8) (ip : BitVec w) (salt : Bytes) (pool : Net w) (i : Nat) :
    (mapIp env version ip salt pool).getLsbD i =
      if w - pool.prefixLen ≤ i then pool.addr.getLsbD i
      else (fromBeBytes w ((env.hmacSha256 salt (version :: octets ip)).take (w / 8))).getLsbD i := by
  unfold mapIp
  rw [BitVec.getLsbD_or, BitVec.getLsbD_and, Net.network_getLsbD, Net.hostMask_getLsbD]
  by_cases network : w - pool.prefixLen ≤ i
  · have outside : ¬ i < w - pool.prefixLen := by omega
    simp [network, outside]
  · have host : i < w - pool.prefixLen := by omega
    simp [network, host]

theorem mapIp_covered (version : UInt8) (ip : BitVec w) (salt : Bytes) (pool : Net w) :
    pool.Covers (mapIp env version ip salt pool) := by
  intro i _ network
  rw [mapIp_getLsbD, if_pos network]

/-- No mapping reaches a shift or a subtraction that overflows. -/
theorem mapIpChecked_eq (version : UInt8) (ip : BitVec w) (salt : Bytes) (pool : Net w) :
    mapIpChecked env version ip salt pool = some (mapIp env version ip salt pool) := by
  simp [mapIpChecked, hostMaskChecked_eq, mapIp]

/-- Every address is mapped, without a panic, to one with the pool's network
bits, which is an address of the pool. -/
theorem pseudonyms_stay_in_the_pool (salt : Bytes) :
    (∀ (ip : BitVec 32) (pool : Net 32), ∃ mapped,
      mapIpChecked env 4 ip salt pool = some mapped ∧ mapIpv4 env ip salt pool = mapped ∧
        pool.Covers mapped ∧ pool.Contains mapped) ∧
    (∀ (ip : BitVec 128) (pool : Net 128), ∃ mapped,
      mapIpChecked env 6 ip salt pool = some mapped ∧ mapIpv6 env ip salt pool = mapped ∧
        pool.Covers mapped ∧ pool.Contains mapped) := by
  constructor
  · intro ip pool
    have covered := mapIp_covered env 4 ip salt pool
    exact ⟨mapIp env 4 ip salt pool, mapIpChecked_eq env 4 ip salt pool, rfl, covered,
      (pool.contains_iff _).mpr covered⟩
  · intro ip pool
    have covered := mapIp_covered env 6 ip salt pool
    exact ⟨mapIp env 6 ip salt pool, mapIpChecked_eq env 6 ip salt pool, rfl, covered,
      (pool.contains_iff _).mpr covered⟩

end

end WarpMotor.Privacy
