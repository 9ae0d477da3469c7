import TenantQuery.Text.Table

namespace TenantQuery.Text

/-- Ranges of letters, marks, numbers, punctuation and symbols, and the plain space. -/
def printable : Table := .ofRows <| Table.rowsOf
  [0x800020_00007e_8000a1_0000ac_8000ae_000377_80037a_00037f_800384_00038a_80038c_00038c,
   0x80038e_0003a1_8003a3_00052f_800531_000556_800559_00058a_80058d_00058f_800591_0005c7,
   0x8005d0_0005ea_8005ef_0005f4_800606_00061b_80061d_0006dc_8006de_00070d_800710_00074a,
   0x80074d_0007b1_8007c0_0007fa_8007fd_00082d_800830_00083e_800840_00085b_80085e_00085e,
   0x800860_00086a_800870_00088e_800898_0008e1_8008e3_000983_800985_00098c_80098f_000990,
   0x800993_0009a8_8009aa_0009b0_8009b2_0009b2_8009b6_0009b9_8009bc_0009c4_8009c7_0009c8,
   0x8009cb_0009ce_8009d7_0009d7_8009dc_0009dd_8009df_0009e3_8009e6_0009fe_800a01_000a03,
   0x800a05_000a0a_800a0f_000a10_800a13_000a28_800a2a_000a30_800a32_000a33_800a35_000a36,
   0x800a38_000a39_800a3c_000a3c_800a3e_000a42_800a47_000a48_800a4b_000a4d_800a51_000a51,
   0x800a59_000a5c_800a5e_000a5e_800a66_000a76_800a81_000a83_800a85_000a8d_800a8f_000a91,
   0x800a93_000aa8_800aaa_000ab0_800ab2_000ab3_800ab5_000ab9_800abc_000ac5_800ac7_000ac9,
   0x800acb_000acd_800ad0_000ad0_800ae0_000ae3_800ae6_000af1_800af9_000aff_800b01_000b03,
   0x800b05_000b0c_800b0f_000b10_800b13_000b28_800b2a_000b30_800b32_000b33_800b35_000b39,
   0x800b3c_000b44_800b47_000b48_800b4b_000b4d_800b55_000b57_800b5c_000b5d_800b5f_000b63,
   0x800b66_000b77_800b82_000b83_800b85_000b8a_800b8e_000b90_800b92_000b95_800b99_000b9a,
   0x800b9c_000b9c_800b9e_000b9f_800ba3_000ba4_800ba8_000baa_800bae_000bb9_800bbe_000bc2,
   0x800bc6_000bc8_800bca_000bcd_800bd0_000bd0_800bd7_000bd7_800be6_000bfa_800c00_000c0c,
   0x800c0e_000c10_800c12_000c28_800c2a_000c39_800c3c_000c44_800c46_000c48_800c4a_000c4d,
   0x800c55_000c56_800c58_000c5a_800c5d_000c5d_800c60_000c63_800c66_000c6f_800c77_000c8c,
   0x800c8e_000c90_800c92_000ca8_800caa_000cb3_800cb5_000cb9_800cbc_000cc4_800cc6_000cc8,
   0x800cca_000ccd_800cd5_000cd6_800cdd_000cde_800ce0_000ce3_800ce6_000cef_800cf1_000cf3,
   0x800d00_000d0c_800d0e_000d10_800d12_000d44_800d46_000d48_800d4a_000d4f_800d54_000d63,
   0x800d66_000d7f_800d81_000d83_800d85_000d96_800d9a_000db1_800db3_000dbb_800dbd_000dbd,
   0x800dc0_000dc6_800dca_000dca_800dcf_000dd4_800dd6_000dd6_800dd8_000ddf_800de6_000def,
   0x800df2_000df4_800e01_000e3a_800e3f_000e5b_800e81_000e82_800e84_000e84_800e86_000e8a,
   0x800e8c_000ea3_800ea5_000ea5_800ea7_000ebd_800ec0_000ec4_800ec6_000ec6_800ec8_000ece,
   0x800ed0_000ed9_800edc_000edf_800f00_000f47_800f49_000f6c_800f71_000f97_800f99_000fbc,
   0x800fbe_000fcc_800fce_000fda_801000_0010c5_8010c7_0010c7_8010cd_0010cd_8010d0_001248,
   0x80124a_00124d_801250_001256_801258_001258_80125a_00125d_801260_001288_80128a_00128d,
   0x801290_0012b0_8012b2_0012b5_8012b8_0012be_8012c0_0012c0_8012c2_0012c5_8012c8_0012d6,
   0x8012d8_001310_801312_001315_801318_00135a_80135d_00137c_801380_001399_8013a0_0013f5,
   0x8013f8_0013fd_801400_00167f_801681_00169c_8016a0_0016f8_801700_001715_80171f_001736,
   0x801740_001753_801760_00176c_80176e_001770_801772_001773_801780_0017dd_8017e0_0017e9,
   0x8017f0_0017f9_801800_00180d_80180f_001819_801820_001878_801880_0018aa_8018b0_0018f5,
   0x801900_00191e_801920_00192b_801930_00193b_801940_001940_801944_00196d_801970_001974,
   0x801980_0019ab_8019b0_0019c9_8019d0_0019da_8019de_001a1b_801a1e_001a5e_801a60_001a7c,
   0x801a7f_001a89_801a90_001a99_801aa0_001aad_801ab0_001ace_801b00_001b4c_801b50_001b7e,
   0x801b80_001bf3_801bfc_001c37_801c3b_001c49_801c4d_001c88_801c90_001cba_801cbd_001cc7,
   0x801cd0_001cfa_801d00_001f15_801f18_001f1d_801f20_001f45_801f48_001f4d_801f50_001f57,
   0x801f59_001f59_801f5b_001f5b_801f5d_001f5d_801f5f_001f7d_801f80_001fb4_801fb6_001fc4,
   0x801fc6_001fd3_801fd6_001fdb_801fdd_001fef_801ff2_001ff4_801ff6_001ffe_802010_002027,
   0x802030_00205e_802070_002071_802074_00208e_802090_00209c_8020a0_0020c0_8020d0_0020f0,
   0x802100_00218b_802190_002426_802440_00244a_802460_002b73_802b76_002b95_802b97_002cf3,
   0x802cf9_002d25_802d27_002d27_802d2d_002d2d_802d30_002d67_802d6f_002d70_802d7f_002d96,
   0x802da0_002da6_802da8_002dae_802db0_002db6_802db8_002dbe_802dc0_002dc6_802dc8_002dce,
   0x802dd0_002dd6_802dd8_002dde_802de0_002e5d_802e80_002e99_802e9b_002ef3_802f00_002fd5,
   0x802ff0_002ffb_803001_00303f_803041_003096_803099_0030ff_803105_00312f_803131_00318e,
   0x803190_0031e3_8031f0_00321e_803220_00a48c_80a490_00a4c6_80a4d0_00a62b_80a640_00a6f7,
   0x80a700_00a7ca_80a7d0_00a7d1_80a7d3_00a7d3_80a7d5_00a7d9_80a7f2_00a82c_80a830_00a839,
   0x80a840_00a877_80a880_00a8c5_80a8ce_00a8d9_80a8e0_00a953_80a95f_00a97c_80a980_00a9cd,
   0x80a9cf_00a9d9_80a9de_00a9fe_80aa00_00aa36_80aa40_00aa4d_80aa50_00aa59_80aa5c_00aac2,
   0x80aadb_00aaf6_80ab01_00ab06_80ab09_00ab0e_80ab11_00ab16_80ab20_00ab26_80ab28_00ab2e,
   0x80ab30_00ab6b_80ab70_00abed_80abf0_00abf9_80ac00_00d7a3_80d7b0_00d7c6_80d7cb_00d7fb,
   0x80f900_00fa6d_80fa70_00fad9_80fb00_00fb06_80fb13_00fb17_80fb1d_00fb36_80fb38_00fb3c,
   0x80fb3e_00fb3e_80fb40_00fb41_80fb43_00fb44_80fb46_00fbc2_80fbd3_00fd8f_80fd92_00fdc7,
   0x80fdcf_00fdcf_80fdf0_00fe19_80fe20_00fe52_80fe54_00fe66_80fe68_00fe6b_80fe70_00fe74,
   0x80fe76_00fefc_80ff01_00ffbe_80ffc2_00ffc7_80ffca_00ffcf_80ffd2_00ffd7_80ffda_00ffdc,
   0x80ffe0_00ffe6_80ffe8_00ffee_80fffc_00fffd_810000_01000b_81000d_010026_810028_01003a,
   0x81003c_01003d_81003f_01004d_810050_01005d_810080_0100fa_810100_010102_810107_010133,
   0x810137_01018e_810190_01019c_8101a0_0101a0_8101d0_0101fd_810280_01029c_8102a0_0102d0,
   0x8102e0_0102fb_810300_010323_81032d_01034a_810350_01037a_810380_01039d_81039f_0103c3,
   0x8103c8_0103d5_810400_01049d_8104a0_0104a9_8104b0_0104d3_8104d8_0104fb_810500_010527,
   0x810530_010563_81056f_01057a_81057c_01058a_81058c_010592_810594_010595_810597_0105a1,
   0x8105a3_0105b1_8105b3_0105b9_8105bb_0105bc_810600_010736_810740_010755_810760_010767,
   0x810780_010785_810787_0107b0_8107b2_0107ba_810800_010805_810808_010808_81080a_010835,
   0x810837_010838_81083c_01083c_81083f_010855_810857_01089e_8108a7_0108af_8108e0_0108f2,
   0x8108f4_0108f5_8108fb_01091b_81091f_010939_81093f_01093f_810980_0109b7_8109bc_0109cf,
   0x8109d2_010a03_810a05_010a06_810a0c_010a13_810a15_010a17_810a19_010a35_810a38_010a3a,
   0x810a3f_010a48_810a50_010a58_810a60_010a9f_810ac0_010ae6_810aeb_010af6_810b00_010b35,
   0x810b39_010b55_810b58_010b72_810b78_010b91_810b99_010b9c_810ba9_010baf_810c00_010c48,
   0x810c80_010cb2_810cc0_010cf2_810cfa_010d27_810d30_010d39_810e60_010e7e_810e80_010ea9,
   0x810eab_010ead_810eb0_010eb1_810efd_010f27_810f30_010f59_810f70_010f89_810fb0_010fcb,
   0x810fe0_010ff6_811000_01104d_811052_011075_81107f_0110bc_8110be_0110c2_8110d0_0110e8,
   0x8110f0_0110f9_811100_011134_811136_011147_811150_011176_811180_0111df_8111e1_0111f4,
   0x811200_011211_811213_011241_811280_011286_811288_011288_81128a_01128d_81128f_01129d,
   0x81129f_0112a9_8112b0_0112ea_8112f0_0112f9_811300_011303_811305_01130c_81130f_011310,
   0x811313_011328_81132a_011330_811332_011333_811335_011339_81133b_011344_811347_011348,
   0x81134b_01134d_811350_011350_811357_011357_81135d_011363_811366_01136c_811370_011374,
   0x811400_01145b_81145d_011461_811480_0114c7_8114d0_0114d9_811580_0115b5_8115b8_0115dd,
   0x811600_011644_811650_011659_811660_01166c_811680_0116b9_8116c0_0116c9_811700_01171a,
   0x81171d_01172b_811730_011746_811800_01183b_8118a0_0118f2_8118ff_011906_811909_011909,
   0x81190c_011913_811915_011916_811918_011935_811937_011938_81193b_011946_811950_011959,
   0x8119a0_0119a7_8119aa_0119d7_8119da_0119e4_811a00_011a47_811a50_011aa2_811ab0_011af8,
   0x811b00_011b09_811c00_011c08_811c0a_011c36_811c38_011c45_811c50_011c6c_811c70_011c8f,
   0x811c92_011ca7_811ca9_011cb6_811d00_011d06_811d08_011d09_811d0b_011d36_811d3a_011d3a,
   0x811d3c_011d3d_811d3f_011d47_811d50_011d59_811d60_011d65_811d67_011d68_811d6a_011d8e,
   0x811d90_011d91_811d93_011d98_811da0_011da9_811ee0_011ef8_811f00_011f10_811f12_011f3a,
   0x811f3e_011f59_811fb0_011fb0_811fc0_011ff1_811fff_012399_812400_01246e_812470_012474,
   0x812480_012543_812f90_012ff2_813000_01342f_813440_013455_814400_014646_816800_016a38,
   0x816a40_016a5e_816a60_016a69_816a6e_016abe_816ac0_016ac9_816ad0_016aed_816af0_016af5,
   0x816b00_016b45_816b50_016b59_816b5b_016b61_816b63_016b77_816b7d_016b8f_816e40_016e9a,
   0x816f00_016f4a_816f4f_016f87_816f8f_016f9f_816fe0_016fe4_816ff0_016ff1_817000_0187f7,
   0x818800_018cd5_818d00_018d08_81aff0_01aff3_81aff5_01affb_81affd_01affe_81b000_01b122,
   0x81b132_01b132_81b150_01b152_81b155_01b155_81b164_01b167_81b170_01b2fb_81bc00_01bc6a,
   0x81bc70_01bc7c_81bc80_01bc88_81bc90_01bc99_81bc9c_01bc9f_81cf00_01cf2d_81cf30_01cf46,
   0x81cf50_01cfc3_81d000_01d0f5_81d100_01d126_81d129_01d172_81d17b_01d1ea_81d200_01d245,
   0x81d2c0_01d2d3_81d2e0_01d2f3_81d300_01d356_81d360_01d378_81d400_01d454_81d456_01d49c,
   0x81d49e_01d49f_81d4a2_01d4a2_81d4a5_01d4a6_81d4a9_01d4ac_81d4ae_01d4b9_81d4bb_01d4bb,
   0x81d4bd_01d4c3_81d4c5_01d505_81d507_01d50a_81d50d_01d514_81d516_01d51c_81d51e_01d539,
   0x81d53b_01d53e_81d540_01d544_81d546_01d546_81d54a_01d550_81d552_01d6a5_81d6a8_01d7cb,
   0x81d7ce_01da8b_81da9b_01da9f_81daa1_01daaf_81df00_01df1e_81df25_01df2a_81e000_01e006,
   0x81e008_01e018_81e01b_01e021_81e023_01e024_81e026_01e02a_81e030_01e06d_81e08f_01e08f,
   0x81e100_01e12c_81e130_01e13d_81e140_01e149_81e14e_01e14f_81e290_01e2ae_81e2c0_01e2f9,
   0x81e2ff_01e2ff_81e4d0_01e4f9_81e7e0_01e7e6_81e7e8_01e7eb_81e7ed_01e7ee_81e7f0_01e7fe,
   0x81e800_01e8c4_81e8c7_01e8d6_81e900_01e94b_81e950_01e959_81e95e_01e95f_81ec71_01ecb4,
   0x81ed01_01ed3d_81ee00_01ee03_81ee05_01ee1f_81ee21_01ee22_81ee24_01ee24_81ee27_01ee27,
   0x81ee29_01ee32_81ee34_01ee37_81ee39_01ee39_81ee3b_01ee3b_81ee42_01ee42_81ee47_01ee47,
   0x81ee49_01ee49_81ee4b_01ee4b_81ee4d_01ee4f_81ee51_01ee52_81ee54_01ee54_81ee57_01ee57,
   0x81ee59_01ee59_81ee5b_01ee5b_81ee5d_01ee5d_81ee5f_01ee5f_81ee61_01ee62_81ee64_01ee64,
   0x81ee67_01ee6a_81ee6c_01ee72_81ee74_01ee77_81ee79_01ee7c_81ee7e_01ee7e_81ee80_01ee89,
   0x81ee8b_01ee9b_81eea1_01eea3_81eea5_01eea9_81eeab_01eebb_81eef0_01eef1_81f000_01f02b,
   0x81f030_01f093_81f0a0_01f0ae_81f0b1_01f0bf_81f0c1_01f0cf_81f0d1_01f0f5_81f100_01f1ad,
   0x81f1e6_01f202_81f210_01f23b_81f240_01f248_81f250_01f251_81f260_01f265_81f300_01f6d7,
   0x81f6dc_01f6ec_81f6f0_01f6fc_81f700_01f776_81f77b_01f7d9_81f7e0_01f7eb_81f7f0_01f7f0,
   0x81f800_01f80b_81f810_01f847_81f850_01f859_81f860_01f887_81f890_01f8ad_81f8b0_01f8b1,
   0x81f900_01fa53_81fa60_01fa6d_81fa70_01fa7c_81fa80_01fa88_81fa90_01fabd_81fabf_01fac5,
   0x81face_01fadb_81fae0_01fae8_81faf0_01faf8_81fb00_01fb92_81fb94_01fbca_81fbf0_01fbf9,
   0x820000_02a6df_82a700_02b739_82b740_02b81d_82b820_02cea1_82ceb0_02ebe0_82f800_02fa1d,
   0x830000_03134a_831350_0323af_8e0100_0e01ef]

def isPrintable (c : Char) : Bool :=
  if c.val < 0x7f then 0x20 ≤ c.val
  else (printable.inRange? c.toNat).isSome

end TenantQuery.Text
