import WorldIDBridge.L2.Groth16

/-!
# The verification key

The constants of `groth16_verifier_constants.cairo`, limb by limb: the key
and the five points `ic`. The table of precomputed lines belongs to the
pairing check and stays with it.
-/

namespace WorldIDBridge.L2.Groth16

/-- `N_PUBLIC_INPUTS`. -/
def nPublicInputs : Nat := 4

def vk : Groth16VerifyingKey where
  alphaBetaMillerLoopResult :=
    ⟨⟨0x38febe9f87f730fa3e5bd174, 0xf763950637a776ef9e248435, 0x29dc2d37c63acbda⟩,
     ⟨0xa31610a97aa4e4539be919ff, 0xfa4d4bfb72b6a3c002018e97, 0x1968ab971e610fce⟩,
     ⟨0xee6c1ce3a15313c6f9d57f7e, 0xd37e28396640fcfe5f122aae, 0x210d3763f7a27517⟩,
     ⟨0x7746ddac185562e756b1b92f, 0x44f8b75638ef5a373f319cd8, 0x51e9605db4edac6⟩,
     ⟨0xc29e0c2ac434301d671ffa56, 0xa06f1db2d4ca4dd88f979102, 0x1d0126fb7d721e02⟩,
     ⟨0xed2e022e10acbeb35084dc1, 0xf9de514baee870f114669060, 0x10889a0f300ce96c⟩,
     ⟨0xeec23aadde92d2dd00e4568e, 0x6d5b4b63667db8f10bd851ab, 0x18f1dd15d2e64c69⟩,
     ⟨0x2131bad24ea07a033d0bf397, 0xb6312a7f2622146be93b5950, 0x227e61ca055f0ac3⟩,
     ⟨0xb896f30b06350f012274ebcd, 0xd14298f13a76183170aafe08, 0x302bfd90358d23a0⟩,
     ⟨0x679d91263798da428fa5ea62, 0x806797d163f4df8b55ec774c, 0x29b72d4ec063face⟩,
     ⟨0x4dbef45fe0c5a14bef7c4a90, 0xd4ae215c443d0f0768198bc6, 0x2fcc02633e427272⟩,
     ⟨0x7308cad65773475443cfbd80, 0x972f90a77f1a8aeece6571ff, 0x2d3a570362a9fd7f⟩⟩
  gammaG2 :=
    ⟨⟨0xf75edadd46debd5cd992f6ed, 0x426a00665e5c4479674322d4, 0x1800deef121f1e76, 0x0⟩,
     ⟨0x35a9e71297e485b7aef312c2, 0x7260bfb731fb5d25f1aa4933, 0x198e9393920d483a, 0x0⟩,
     ⟨0xc43d37b4ce6cc0166fa7daa, 0x4aab71808dcb408fe3d1e769, 0x12c85ea5db8c6deb, 0x0⟩,
     ⟨0x70b38ef355acdadcd122975b, 0xec9e99ad690c3395bc4b3133, 0x90689d0585ff075, 0x0⟩⟩
  deltaG2 :=
    ⟨⟨0x69e450759142a7159b0a4476, 0xa623957c4f2ea1a0d26f1357, 0x2139a256456825da, 0x0⟩,
     ⟨0xc01a86690a6645b52f3aa1f, 0x5bcff39c7fa9207cd368444c, 0x168e4fddac50a40d, 0x0⟩,
     ⟨0xc141710167fcdc0dc931bffd, 0xe601586279bb60f12416a8c, 0x1c3976c9a490dad5, 0x0⟩,
     ⟨0xe49dcd7ae91aaf1223bc6d63, 0xbc6a7dac67c07051f421904d, 0x28deba4ed0a3b79d, 0x0⟩⟩

/-- The points the public inputs are combined with. -/
def ic : Span G1Point where
  elems :=
    [⟨⟨0x74c6231a2c34417d34491254, 0x55aae85514122267cd7d16e3, 0x335f514c2acb9b2, 0x0⟩,
      ⟨0xb90b2e8ed4f7e310c88b97f7, 0xf6d660c6f60f86afedd8a12f, 0x7fa1580c1cc3ed4, 0x0⟩⟩,
     ⟨⟨0xfc9eb7f932a5229494d6b79, 0xa4b3814128c86e597e1442d, 0x20b781dd0db3b798, 0x0⟩,
      ⟨0xb111a539c0295518bbab3ca9, 0x5670c7b34854e62c227043a7, 0x17d1cef436eb2f66, 0x0⟩⟩,
     ⟨⟨0x96ea300d40132b1c2f50299a, 0x74ab7e203a18240e51c9d3c8, 0x260945445b4205f8, 0x0⟩,
      ⟨0x6866059e403689c01c903fb, 0xe1c482c909302916795f811a, 0x11087a8b76b0f957, 0x0⟩⟩,
     ⟨⟨0x6a6e70762a939d63dcc52dbf, 0x8ba1469ccb8ac99dcdc7cf74, 0x11d20fd81c0e5cf4, 0x0⟩,
      ⟨0x8dc049e0a6e72f5efc14293d, 0x7d7bcaace88b3842c42b800d, 0x2d447c5f134eff52, 0x0⟩⟩,
     ⟨⟨0x6c127b4c799ad4fdd230b87c, 0x73bed4c1b76af48975e66dcf, 0x107cd54a1606a6a8, 0x0⟩,
      ⟨0xcb86cc09aed6f58a28e530b6, 0xbcc56ebb1c482b99340eaa9b, 0x1a51b81f6c07725e, 0x0⟩⟩]
  size := by decide

end WorldIDBridge.L2.Groth16
