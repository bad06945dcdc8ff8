import RequestSigning.Proofs.Rsa.Completeness
import RequestSigning.Proofs.Rsa.Primality
set_option autoImplicit false

namespace RequestSigning.Rsa.PrivateKey

/-- A key of the least size that can sign. -/
def smallest : PrivateKey where
  modulus := 0xd76d9f969323f569940d8659f6d60af36e4d534236d37624fa11d47a8367e8f5f5e1697de372c80794c6d07fcd47754950adccd63a1ad1330aa91f3cd0f7
  publicExponent := 3
  privateExponent := 0x5211615deee92089be7f0e9c2d4559814e975cab8299b31a46e23890320f3379f26009ef81acc2e19384eb45a1e60ad03d894b0af5a31d8449b796214af
  p := 0xe49636fa7f0eab4c4f9b0687322e25c215a82a06ec41adea0575438b0d590b
  q := 0xf1436e54ea2061fc27d6835fb6d625d6d106fb60ed33a0b9b253e3aa181345
  valid := by decide +kernel

/-- The small primes among the factors below. -/
def smallestPrimes : List Nat :=
  [2, 3, 5, 7, 11, 13, 17, 19, 23, 41, 47, 53, 61, 79, 83, 97, 101, 157, 193, 311, 347, 463, 953,
    1277, 1283, 1297, 1493, 1861, 2243, 2591, 3061, 3209, 3343, 7451, 10477, 14029, 14897]

theorem prime_of_mem_smallestPrimes : ∀ n ∈ smallestPrimes, n.Prime := by
  simp only [smallestPrimes, List.forall_mem_cons]
  norm_num

/-- The factors of `smallest` and the primes that certify them, in ascending order. -/
def smallestSteps : List PrimalityStep :=
  [⟨37967, 5, [2, 41, 463]⟩,
    ⟨99607, 3, [2, 3, 13, 1277]⟩,
    ⟨200131, 2, [2, 3, 5, 7, 953]⟩,
    ⟨289643, 2, [2, 97, 1493]⟩,
    ⟨449261, 2, [2, 2, 5, 7, 3209]⟩,
    ⟨776257, 5, [2, 2, 2, 2, 2, 2, 3, 13, 311]⟩,
    ⟨792073, 5, [2, 2, 2, 3, 3, 3, 19, 193]⟩,
    ⟨4398337, 10, [2, 2, 2, 2, 2, 2, 2, 2, 3, 3, 23, 83]⟩,
    ⟨11699143, 3, [2, 3, 7, 7, 13, 3061]⟩,
    ⟨77625701, 2, [2, 2, 5, 5, 776257]⟩,
    ⟨84886057, 5, [2, 2, 2, 3, 3, 3, 3, 101, 1297]⟩,
    ⟨631753723, 2, [2, 3, 3, 3, 11699143]⟩,
    ⟨3003597911, 23, [2, 5, 17, 61, 289643]⟩,
    ⟨3790522339, 2, [2, 3, 631753723]⟩,
    ⟨11643855151, 3, [2, 3, 5, 5, 77625701]⟩,
    ⟨6337753350809, 3, [2, 2, 2, 11, 19, 3790522339]⟩,
    ⟨26948280457493, 2, [2, 2, 2243, 3003597911]⟩,
    ⟨182683807969603, 2, [2, 3, 19, 79, 79, 1283, 200131]⟩,
    ⟨1077903761875273, 5, [2, 2, 2, 3, 3, 3, 3, 3, 3, 347, 14029, 37967]⟩,
    ⟨1524155919291636023, 5, [2, 7, 101, 1077903761875273]⟩,
    ⟨9756866850615734237, 2, [2, 2, 47, 14897, 792073, 4398337]⟩,
    ⟨54869613094498896829, 2, [2, 2, 3, 3, 1524155919291636023]⟩,
    ⟨498190801464433374799, 15, [2, 3, 61, 7451, 182683807969603]⟩,
    ⟨183819371465600433025081, 7, [2, 2, 2, 3, 5, 157, 9756866850615734237]⟩,
    ⟨17957341518393381561801656181049, 13, [2, 2, 2, 3, 3343, 449261, 498190801464433374799]⟩,
    ⟨3163868087442693110610710199226661213, 2, [2, 2, 17, 2591, 17957341518393381561801656181049]⟩,
    ⟨240091976186166739464472945496226156231846851830061, 2,
      [2, 2, 5, 7, 99607, 11643855151, 26948280457493, 54869613094498896829]⟩,
    ⟨1163160486467574395372093850345486599416867942847818237766507, 2,
      [2, 183819371465600433025081, 3163868087442693110610710199226661213]⟩,
    ⟨356064632018838495191590984995981003179855107009889919760859427667, 14,
      [2, 3, 3, 13, 6337753350809, 240091976186166739464472945496226156231846851830061]⟩,
    ⟨403877874938951497070056575223495173889512613346697251902371614015053715723, 2,
      [2, 7, 157, 1861, 84886057, 1163160486467574395372093850345486599416867942847818237766507]⟩,
    ⟨426275534153505531614926833542476973931993494644504523856877413989998924613, 2,
      [2, 2, 7, 7, 11, 53, 10477,
        356064632018838495191590984995981003179855107009889919760859427667]⟩]

theorem smallestSteps_check : PrimalityStep.check smallestPrimes smallestSteps = true := by
  decide +kernel

theorem smallest_primes : smallest.p.Prime ∧ smallest.q.Prime := by
  have primes := PrimalityStep.prime_of_check prime_of_mem_smallestPrimes smallestSteps_check
  exact ⟨primes smallest.p (by decide), primes smallest.q (by decide)⟩

/-- The key of the least size signs everything. -/
theorem exists_sign_smallest (message : Bytes) :
    ∃ signature, smallest.sign message = .ok signature :=
  exists_sign smallest_primes.1 smallest_primes.2 (by decide) (by decide +kernel) message

end RequestSigning.Rsa.PrivateKey
