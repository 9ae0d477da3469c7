import TenantQuery.Text.Table

namespace TenantQuery.Text.Composition

/-- Ranges of marks and their class. -/
def classes : Table := .ofRows <| Table.rowsOf
  [0x800300_000314_0000e6_800315_000315_0000e8_800316_000319_0000dc_80031a_00031a_0000e8,
   0x80031b_00031b_0000d8_80031c_000320_0000dc_800321_000322_0000ca_800323_000326_0000dc,
   0x800327_000328_0000ca_800329_000333_0000dc_800334_000338_000001_800339_00033c_0000dc,
   0x80033d_000344_0000e6_800345_000345_0000f0_800346_000346_0000e6_800347_000349_0000dc,
   0x80034a_00034c_0000e6_80034d_00034e_0000dc_800350_000352_0000e6_800353_000356_0000dc,
   0x800357_000357_0000e6_800358_000358_0000e8_800359_00035a_0000dc_80035b_00035b_0000e6,
   0x80035c_00035c_0000e9_80035d_00035e_0000ea_80035f_00035f_0000e9_800360_000361_0000ea,
   0x800362_000362_0000e9_800363_00036f_0000e6_800483_000487_0000e6_800591_000591_0000dc,
   0x800592_000595_0000e6_800596_000596_0000dc_800597_000599_0000e6_80059a_00059a_0000de,
   0x80059b_00059b_0000dc_80059c_0005a1_0000e6_8005a2_0005a7_0000dc_8005a8_0005a9_0000e6,
   0x8005aa_0005aa_0000dc_8005ab_0005ac_0000e6_8005ad_0005ad_0000de_8005ae_0005ae_0000e4,
   0x8005af_0005af_0000e6_8005b0_0005b0_00000a_8005b1_0005b1_00000b_8005b2_0005b2_00000c,
   0x8005b3_0005b3_00000d_8005b4_0005b4_00000e_8005b5_0005b5_00000f_8005b6_0005b6_000010,
   0x8005b7_0005b7_000011_8005b8_0005b8_000012_8005b9_0005ba_000013_8005bb_0005bb_000014,
   0x8005bc_0005bc_000015_8005bd_0005bd_000016_8005bf_0005bf_000017_8005c1_0005c1_000018,
   0x8005c2_0005c2_000019_8005c4_0005c4_0000e6_8005c5_0005c5_0000dc_8005c7_0005c7_000012,
   0x800610_000617_0000e6_800618_000618_00001e_800619_000619_00001f_80061a_00061a_000020,
   0x80064b_00064b_00001b_80064c_00064c_00001c_80064d_00064d_00001d_80064e_00064e_00001e,
   0x80064f_00064f_00001f_800650_000650_000020_800651_000651_000021_800652_000652_000022,
   0x800653_000654_0000e6_800655_000656_0000dc_800657_00065b_0000e6_80065c_00065c_0000dc,
   0x80065d_00065e_0000e6_80065f_00065f_0000dc_800670_000670_000023_8006d6_0006dc_0000e6,
   0x8006df_0006e2_0000e6_8006e3_0006e3_0000dc_8006e4_0006e4_0000e6_8006e7_0006e8_0000e6,
   0x8006ea_0006ea_0000dc_8006eb_0006ec_0000e6_8006ed_0006ed_0000dc_800711_000711_000024,
   0x800730_000730_0000e6_800731_000731_0000dc_800732_000733_0000e6_800734_000734_0000dc,
   0x800735_000736_0000e6_800737_000739_0000dc_80073a_00073a_0000e6_80073b_00073c_0000dc,
   0x80073d_00073d_0000e6_80073e_00073e_0000dc_80073f_000741_0000e6_800742_000742_0000dc,
   0x800743_000743_0000e6_800744_000744_0000dc_800745_000745_0000e6_800746_000746_0000dc,
   0x800747_000747_0000e6_800748_000748_0000dc_800749_00074a_0000e6_8007eb_0007f1_0000e6,
   0x8007f2_0007f2_0000dc_8007f3_0007f3_0000e6_8007fd_0007fd_0000dc_800816_000819_0000e6,
   0x80081b_000823_0000e6_800825_000827_0000e6_800829_00082d_0000e6_800859_00085b_0000dc,
   0x800898_000898_0000e6_800899_00089b_0000dc_80089c_00089f_0000e6_8008ca_0008ce_0000e6,
   0x8008cf_0008d3_0000dc_8008d4_0008e1_0000e6_8008e3_0008e3_0000dc_8008e4_0008e5_0000e6,
   0x8008e6_0008e6_0000dc_8008e7_0008e8_0000e6_8008e9_0008e9_0000dc_8008ea_0008ec_0000e6,
   0x8008ed_0008ef_0000dc_8008f0_0008f0_00001b_8008f1_0008f1_00001c_8008f2_0008f2_00001d,
   0x8008f3_0008f5_0000e6_8008f6_0008f6_0000dc_8008f7_0008f8_0000e6_8008f9_0008fa_0000dc,
   0x8008fb_0008ff_0000e6_80093c_00093c_000007_80094d_00094d_000009_800951_000951_0000e6,
   0x800952_000952_0000dc_800953_000954_0000e6_8009bc_0009bc_000007_8009cd_0009cd_000009,
   0x8009fe_0009fe_0000e6_800a3c_000a3c_000007_800a4d_000a4d_000009_800abc_000abc_000007,
   0x800acd_000acd_000009_800b3c_000b3c_000007_800b4d_000b4d_000009_800bcd_000bcd_000009,
   0x800c3c_000c3c_000007_800c4d_000c4d_000009_800c55_000c55_000054_800c56_000c56_00005b,
   0x800cbc_000cbc_000007_800ccd_000ccd_000009_800d3b_000d3c_000009_800d4d_000d4d_000009,
   0x800dca_000dca_000009_800e38_000e39_000067_800e3a_000e3a_000009_800e48_000e4b_00006b,
   0x800eb8_000eb9_000076_800eba_000eba_000009_800ec8_000ecb_00007a_800f18_000f19_0000dc,
   0x800f35_000f35_0000dc_800f37_000f37_0000dc_800f39_000f39_0000d8_800f71_000f71_000081,
   0x800f72_000f72_000082_800f74_000f74_000084_800f7a_000f7d_000082_800f80_000f80_000082,
   0x800f82_000f83_0000e6_800f84_000f84_000009_800f86_000f87_0000e6_800fc6_000fc6_0000dc,
   0x801037_001037_000007_801039_00103a_000009_80108d_00108d_0000dc_80135d_00135f_0000e6,
   0x801714_001715_000009_801734_001734_000009_8017d2_0017d2_000009_8017dd_0017dd_0000e6,
   0x8018a9_0018a9_0000e4_801939_001939_0000de_80193a_00193a_0000e6_80193b_00193b_0000dc,
   0x801a17_001a17_0000e6_801a18_001a18_0000dc_801a60_001a60_000009_801a75_001a7c_0000e6,
   0x801a7f_001a7f_0000dc_801ab0_001ab4_0000e6_801ab5_001aba_0000dc_801abb_001abc_0000e6,
   0x801abd_001abd_0000dc_801abf_001ac0_0000dc_801ac1_001ac2_0000e6_801ac3_001ac4_0000dc,
   0x801ac5_001ac9_0000e6_801aca_001aca_0000dc_801acb_001ace_0000e6_801b34_001b34_000007,
   0x801b44_001b44_000009_801b6b_001b6b_0000e6_801b6c_001b6c_0000dc_801b6d_001b73_0000e6,
   0x801baa_001bab_000009_801be6_001be6_000007_801bf2_001bf3_000009_801c37_001c37_000007,
   0x801cd0_001cd2_0000e6_801cd4_001cd4_000001_801cd5_001cd9_0000dc_801cda_001cdb_0000e6,
   0x801cdc_001cdf_0000dc_801ce0_001ce0_0000e6_801ce2_001ce8_000001_801ced_001ced_0000dc,
   0x801cf4_001cf4_0000e6_801cf8_001cf9_0000e6_801dc0_001dc1_0000e6_801dc2_001dc2_0000dc,
   0x801dc3_001dc9_0000e6_801dca_001dca_0000dc_801dcb_001dcc_0000e6_801dcd_001dcd_0000ea,
   0x801dce_001dce_0000d6_801dcf_001dcf_0000dc_801dd0_001dd0_0000ca_801dd1_001df5_0000e6,
   0x801df6_001df6_0000e8_801df7_001df8_0000e4_801df9_001df9_0000dc_801dfa_001dfa_0000da,
   0x801dfb_001dfb_0000e6_801dfc_001dfc_0000e9_801dfd_001dfd_0000dc_801dfe_001dfe_0000e6,
   0x801dff_001dff_0000dc_8020d0_0020d1_0000e6_8020d2_0020d3_000001_8020d4_0020d7_0000e6,
   0x8020d8_0020da_000001_8020db_0020dc_0000e6_8020e1_0020e1_0000e6_8020e5_0020e6_000001,
   0x8020e7_0020e7_0000e6_8020e8_0020e8_0000dc_8020e9_0020e9_0000e6_8020ea_0020eb_000001,
   0x8020ec_0020ef_0000dc_8020f0_0020f0_0000e6_802cef_002cf1_0000e6_802d7f_002d7f_000009,
   0x802de0_002dff_0000e6_80302a_00302a_0000da_80302b_00302b_0000e4_80302c_00302c_0000e8,
   0x80302d_00302d_0000de_80302e_00302f_0000e0_803099_00309a_000008_80a66f_00a66f_0000e6,
   0x80a674_00a67d_0000e6_80a69e_00a69f_0000e6_80a6f0_00a6f1_0000e6_80a806_00a806_000009,
   0x80a82c_00a82c_000009_80a8c4_00a8c4_000009_80a8e0_00a8f1_0000e6_80a92b_00a92d_0000dc,
   0x80a953_00a953_000009_80a9b3_00a9b3_000007_80a9c0_00a9c0_000009_80aab0_00aab0_0000e6,
   0x80aab2_00aab3_0000e6_80aab4_00aab4_0000dc_80aab7_00aab8_0000e6_80aabe_00aabf_0000e6,
   0x80aac1_00aac1_0000e6_80aaf6_00aaf6_000009_80abed_00abed_000009_80fb1e_00fb1e_00001a,
   0x80fe20_00fe26_0000e6_80fe27_00fe2d_0000dc_80fe2e_00fe2f_0000e6_8101fd_0101fd_0000dc,
   0x8102e0_0102e0_0000dc_810376_01037a_0000e6_810a0d_010a0d_0000dc_810a0f_010a0f_0000e6,
   0x810a38_010a38_0000e6_810a39_010a39_000001_810a3a_010a3a_0000dc_810a3f_010a3f_000009,
   0x810ae5_010ae5_0000e6_810ae6_010ae6_0000dc_810d24_010d27_0000e6_810eab_010eac_0000e6,
   0x810efd_010eff_0000dc_810f46_010f47_0000dc_810f48_010f4a_0000e6_810f4b_010f4b_0000dc,
   0x810f4c_010f4c_0000e6_810f4d_010f50_0000dc_810f82_010f82_0000e6_810f83_010f83_0000dc,
   0x810f84_010f84_0000e6_810f85_010f85_0000dc_811046_011046_000009_811070_011070_000009,
   0x81107f_01107f_000009_8110b9_0110b9_000009_8110ba_0110ba_000007_811100_011102_0000e6,
   0x811133_011134_000009_811173_011173_000007_8111c0_0111c0_000009_8111ca_0111ca_000007,
   0x811235_011235_000009_811236_011236_000007_8112e9_0112e9_000007_8112ea_0112ea_000009,
   0x81133b_01133c_000007_81134d_01134d_000009_811366_01136c_0000e6_811370_011374_0000e6,
   0x811442_011442_000009_811446_011446_000007_81145e_01145e_0000e6_8114c2_0114c2_000009,
   0x8114c3_0114c3_000007_8115bf_0115bf_000009_8115c0_0115c0_000007_81163f_01163f_000009,
   0x8116b6_0116b6_000009_8116b7_0116b7_000007_81172b_01172b_000009_811839_011839_000009,
   0x81183a_01183a_000007_81193d_01193e_000009_811943_011943_000007_8119e0_0119e0_000009,
   0x811a34_011a34_000009_811a47_011a47_000009_811a99_011a99_000009_811c3f_011c3f_000009,
   0x811d42_011d42_000007_811d44_011d45_000009_811d97_011d97_000009_811f41_011f42_000009,
   0x816af0_016af4_000001_816b30_016b36_0000e6_816ff0_016ff1_000006_81bc9e_01bc9e_000001,
   0x81d165_01d166_0000d8_81d167_01d169_000001_81d16d_01d16d_0000e2_81d16e_01d172_0000d8,
   0x81d17b_01d182_0000dc_81d185_01d189_0000e6_81d18a_01d18b_0000dc_81d1aa_01d1ad_0000e6,
   0x81d242_01d244_0000e6_81e000_01e006_0000e6_81e008_01e018_0000e6_81e01b_01e021_0000e6,
   0x81e023_01e024_0000e6_81e026_01e02a_0000e6_81e08f_01e08f_0000e6_81e130_01e136_0000e6,
   0x81e2ae_01e2ae_0000e6_81e2ec_01e2ef_0000e6_81e4ec_01e4ed_0000e8_81e4ee_01e4ee_0000dc,
   0x81e4ef_01e4ef_0000e6_81e8d0_01e8d6_0000dc_81e944_01e949_0000e6_81e94a_01e94a_000007]

def decompositions : Table := .ofRows <| Table.rowsOf
  [0x8000c0_000041_000300_8000c1_000041_000301_8000c2_000041_000302_8000c3_000041_000303,
   0x8000c4_000041_000308_8000c5_000041_00030a_8000c7_000043_000327_8000c8_000045_000300,
   0x8000c9_000045_000301_8000ca_000045_000302_8000cb_000045_000308_8000cc_000049_000300,
   0x8000cd_000049_000301_8000ce_000049_000302_8000cf_000049_000308_8000d1_00004e_000303,
   0x8000d2_00004f_000300_8000d3_00004f_000301_8000d4_00004f_000302_8000d5_00004f_000303,
   0x8000d6_00004f_000308_8000d9_000055_000300_8000da_000055_000301_8000db_000055_000302,
   0x8000dc_000055_000308_8000dd_000059_000301_8000e0_000061_000300_8000e1_000061_000301,
   0x8000e2_000061_000302_8000e3_000061_000303_8000e4_000061_000308_8000e5_000061_00030a,
   0x8000e7_000063_000327_8000e8_000065_000300_8000e9_000065_000301_8000ea_000065_000302,
   0x8000eb_000065_000308_8000ec_000069_000300_8000ed_000069_000301_8000ee_000069_000302,
   0x8000ef_000069_000308_8000f1_00006e_000303_8000f2_00006f_000300_8000f3_00006f_000301,
   0x8000f4_00006f_000302_8000f5_00006f_000303_8000f6_00006f_000308_8000f9_000075_000300,
   0x8000fa_000075_000301_8000fb_000075_000302_8000fc_000075_000308_8000fd_000079_000301,
   0x8000ff_000079_000308_800100_000041_000304_800101_000061_000304_800102_000041_000306,
   0x800103_000061_000306_800104_000041_000328_800105_000061_000328_800106_000043_000301,
   0x800107_000063_000301_800108_000043_000302_800109_000063_000302_80010a_000043_000307,
   0x80010b_000063_000307_80010c_000043_00030c_80010d_000063_00030c_80010e_000044_00030c,
   0x80010f_000064_00030c_800112_000045_000304_800113_000065_000304_800114_000045_000306,
   0x800115_000065_000306_800116_000045_000307_800117_000065_000307_800118_000045_000328,
   0x800119_000065_000328_80011a_000045_00030c_80011b_000065_00030c_80011c_000047_000302,
   0x80011d_000067_000302_80011e_000047_000306_80011f_000067_000306_800120_000047_000307,
   0x800121_000067_000307_800122_000047_000327_800123_000067_000327_800124_000048_000302,
   0x800125_000068_000302_800128_000049_000303_800129_000069_000303_80012a_000049_000304,
   0x80012b_000069_000304_80012c_000049_000306_80012d_000069_000306_80012e_000049_000328,
   0x80012f_000069_000328_800130_000049_000307_800134_00004a_000302_800135_00006a_000302,
   0x800136_00004b_000327_800137_00006b_000327_800139_00004c_000301_80013a_00006c_000301,
   0x80013b_00004c_000327_80013c_00006c_000327_80013d_00004c_00030c_80013e_00006c_00030c,
   0x800143_00004e_000301_800144_00006e_000301_800145_00004e_000327_800146_00006e_000327,
   0x800147_00004e_00030c_800148_00006e_00030c_80014c_00004f_000304_80014d_00006f_000304,
   0x80014e_00004f_000306_80014f_00006f_000306_800150_00004f_00030b_800151_00006f_00030b,
   0x800154_000052_000301_800155_000072_000301_800156_000052_000327_800157_000072_000327,
   0x800158_000052_00030c_800159_000072_00030c_80015a_000053_000301_80015b_000073_000301,
   0x80015c_000053_000302_80015d_000073_000302_80015e_000053_000327_80015f_000073_000327,
   0x800160_000053_00030c_800161_000073_00030c_800162_000054_000327_800163_000074_000327,
   0x800164_000054_00030c_800165_000074_00030c_800168_000055_000303_800169_000075_000303,
   0x80016a_000055_000304_80016b_000075_000304_80016c_000055_000306_80016d_000075_000306,
   0x80016e_000055_00030a_80016f_000075_00030a_800170_000055_00030b_800171_000075_00030b,
   0x800172_000055_000328_800173_000075_000328_800174_000057_000302_800175_000077_000302,
   0x800176_000059_000302_800177_000079_000302_800178_000059_000308_800179_00005a_000301,
   0x80017a_00007a_000301_80017b_00005a_000307_80017c_00007a_000307_80017d_00005a_00030c,
   0x80017e_00007a_00030c_8001a0_00004f_00031b_8001a1_00006f_00031b_8001af_000055_00031b,
   0x8001b0_000075_00031b_8001cd_000041_00030c_8001ce_000061_00030c_8001cf_000049_00030c,
   0x8001d0_000069_00030c_8001d1_00004f_00030c_8001d2_00006f_00030c_8001d3_000055_00030c,
   0x8001d4_000075_00030c_8001d5_000055_000308_000304_8001d6_000075_000308_000304,
   0x8001d7_000055_000308_000301_8001d8_000075_000308_000301_8001d9_000055_000308_00030c,
   0x8001da_000075_000308_00030c_8001db_000055_000308_000300_8001dc_000075_000308_000300,
   0x8001de_000041_000308_000304_8001df_000061_000308_000304_8001e0_000041_000307_000304,
   0x8001e1_000061_000307_000304_8001e2_0000c6_000304_8001e3_0000e6_000304_8001e6_000047_00030c,
   0x8001e7_000067_00030c_8001e8_00004b_00030c_8001e9_00006b_00030c_8001ea_00004f_000328,
   0x8001eb_00006f_000328_8001ec_00004f_000328_000304_8001ed_00006f_000328_000304,
   0x8001ee_0001b7_00030c_8001ef_000292_00030c_8001f0_00006a_00030c_8001f4_000047_000301,
   0x8001f5_000067_000301_8001f8_00004e_000300_8001f9_00006e_000300_8001fa_000041_00030a_000301,
   0x8001fb_000061_00030a_000301_8001fc_0000c6_000301_8001fd_0000e6_000301_8001fe_0000d8_000301,
   0x8001ff_0000f8_000301_800200_000041_00030f_800201_000061_00030f_800202_000041_000311,
   0x800203_000061_000311_800204_000045_00030f_800205_000065_00030f_800206_000045_000311,
   0x800207_000065_000311_800208_000049_00030f_800209_000069_00030f_80020a_000049_000311,
   0x80020b_000069_000311_80020c_00004f_00030f_80020d_00006f_00030f_80020e_00004f_000311,
   0x80020f_00006f_000311_800210_000052_00030f_800211_000072_00030f_800212_000052_000311,
   0x800213_000072_000311_800214_000055_00030f_800215_000075_00030f_800216_000055_000311,
   0x800217_000075_000311_800218_000053_000326_800219_000073_000326_80021a_000054_000326,
   0x80021b_000074_000326_80021e_000048_00030c_80021f_000068_00030c_800226_000041_000307,
   0x800227_000061_000307_800228_000045_000327_800229_000065_000327_80022a_00004f_000308_000304,
   0x80022b_00006f_000308_000304_80022c_00004f_000303_000304_80022d_00006f_000303_000304,
   0x80022e_00004f_000307_80022f_00006f_000307_800230_00004f_000307_000304,
   0x800231_00006f_000307_000304_800232_000059_000304_800233_000079_000304_800340_000300,
   0x800341_000301_800343_000313_800344_000308_000301_800374_0002b9_80037e_00003b,
   0x800385_0000a8_000301_800386_000391_000301_800387_0000b7_800388_000395_000301,
   0x800389_000397_000301_80038a_000399_000301_80038c_00039f_000301_80038e_0003a5_000301,
   0x80038f_0003a9_000301_800390_0003b9_000308_000301_8003aa_000399_000308_8003ab_0003a5_000308,
   0x8003ac_0003b1_000301_8003ad_0003b5_000301_8003ae_0003b7_000301_8003af_0003b9_000301,
   0x8003b0_0003c5_000308_000301_8003ca_0003b9_000308_8003cb_0003c5_000308_8003cc_0003bf_000301,
   0x8003cd_0003c5_000301_8003ce_0003c9_000301_8003d3_0003d2_000301_8003d4_0003d2_000308,
   0x800400_000415_000300_800401_000415_000308_800403_000413_000301_800407_000406_000308,
   0x80040c_00041a_000301_80040d_000418_000300_80040e_000423_000306_800419_000418_000306,
   0x800439_000438_000306_800450_000435_000300_800451_000435_000308_800453_000433_000301,
   0x800457_000456_000308_80045c_00043a_000301_80045d_000438_000300_80045e_000443_000306,
   0x800476_000474_00030f_800477_000475_00030f_8004c1_000416_000306_8004c2_000436_000306,
   0x8004d0_000410_000306_8004d1_000430_000306_8004d2_000410_000308_8004d3_000430_000308,
   0x8004d6_000415_000306_8004d7_000435_000306_8004da_0004d8_000308_8004db_0004d9_000308,
   0x8004dc_000416_000308_8004dd_000436_000308_8004de_000417_000308_8004df_000437_000308,
   0x8004e2_000418_000304_8004e3_000438_000304_8004e4_000418_000308_8004e5_000438_000308,
   0x8004e6_00041e_000308_8004e7_00043e_000308_8004ea_0004e8_000308_8004eb_0004e9_000308,
   0x8004ec_00042d_000308_8004ed_00044d_000308_8004ee_000423_000304_8004ef_000443_000304,
   0x8004f0_000423_000308_8004f1_000443_000308_8004f2_000423_00030b_8004f3_000443_00030b,
   0x8004f4_000427_000308_8004f5_000447_000308_8004f8_00042b_000308_8004f9_00044b_000308,
   0x800622_000627_000653_800623_000627_000654_800624_000648_000654_800625_000627_000655,
   0x800626_00064a_000654_8006c0_0006d5_000654_8006c2_0006c1_000654_8006d3_0006d2_000654,
   0x800929_000928_00093c_800931_000930_00093c_800934_000933_00093c_800958_000915_00093c,
   0x800959_000916_00093c_80095a_000917_00093c_80095b_00091c_00093c_80095c_000921_00093c,
   0x80095d_000922_00093c_80095e_00092b_00093c_80095f_00092f_00093c_8009cb_0009c7_0009be,
   0x8009cc_0009c7_0009d7_8009dc_0009a1_0009bc_8009dd_0009a2_0009bc_8009df_0009af_0009bc,
   0x800a33_000a32_000a3c_800a36_000a38_000a3c_800a59_000a16_000a3c_800a5a_000a17_000a3c,
   0x800a5b_000a1c_000a3c_800a5e_000a2b_000a3c_800b48_000b47_000b56_800b4b_000b47_000b3e,
   0x800b4c_000b47_000b57_800b5c_000b21_000b3c_800b5d_000b22_000b3c_800b94_000b92_000bd7,
   0x800bca_000bc6_000bbe_800bcb_000bc7_000bbe_800bcc_000bc6_000bd7_800c48_000c46_000c56,
   0x800cc0_000cbf_000cd5_800cc7_000cc6_000cd5_800cc8_000cc6_000cd6_800cca_000cc6_000cc2,
   0x800ccb_000cc6_000cc2_000cd5_800d4a_000d46_000d3e_800d4b_000d47_000d3e_800d4c_000d46_000d57,
   0x800dda_000dd9_000dca_800ddc_000dd9_000dcf_800ddd_000dd9_000dcf_000dca_800dde_000dd9_000ddf,
   0x800f43_000f42_000fb7_800f4d_000f4c_000fb7_800f52_000f51_000fb7_800f57_000f56_000fb7,
   0x800f5c_000f5b_000fb7_800f69_000f40_000fb5_800f73_000f71_000f72_800f75_000f71_000f74,
   0x800f76_000fb2_000f80_800f78_000fb3_000f80_800f81_000f71_000f80_800f93_000f92_000fb7,
   0x800f9d_000f9c_000fb7_800fa2_000fa1_000fb7_800fa7_000fa6_000fb7_800fac_000fab_000fb7,
   0x800fb9_000f90_000fb5_801026_001025_00102e_801b06_001b05_001b35_801b08_001b07_001b35,
   0x801b0a_001b09_001b35_801b0c_001b0b_001b35_801b0e_001b0d_001b35_801b12_001b11_001b35,
   0x801b3b_001b3a_001b35_801b3d_001b3c_001b35_801b40_001b3e_001b35_801b41_001b3f_001b35,
   0x801b43_001b42_001b35_801e00_000041_000325_801e01_000061_000325_801e02_000042_000307,
   0x801e03_000062_000307_801e04_000042_000323_801e05_000062_000323_801e06_000042_000331,
   0x801e07_000062_000331_801e08_000043_000327_000301_801e09_000063_000327_000301,
   0x801e0a_000044_000307_801e0b_000064_000307_801e0c_000044_000323_801e0d_000064_000323,
   0x801e0e_000044_000331_801e0f_000064_000331_801e10_000044_000327_801e11_000064_000327,
   0x801e12_000044_00032d_801e13_000064_00032d_801e14_000045_000304_000300,
   0x801e15_000065_000304_000300_801e16_000045_000304_000301_801e17_000065_000304_000301,
   0x801e18_000045_00032d_801e19_000065_00032d_801e1a_000045_000330_801e1b_000065_000330,
   0x801e1c_000045_000327_000306_801e1d_000065_000327_000306_801e1e_000046_000307,
   0x801e1f_000066_000307_801e20_000047_000304_801e21_000067_000304_801e22_000048_000307,
   0x801e23_000068_000307_801e24_000048_000323_801e25_000068_000323_801e26_000048_000308,
   0x801e27_000068_000308_801e28_000048_000327_801e29_000068_000327_801e2a_000048_00032e,
   0x801e2b_000068_00032e_801e2c_000049_000330_801e2d_000069_000330_801e2e_000049_000308_000301,
   0x801e2f_000069_000308_000301_801e30_00004b_000301_801e31_00006b_000301_801e32_00004b_000323,
   0x801e33_00006b_000323_801e34_00004b_000331_801e35_00006b_000331_801e36_00004c_000323,
   0x801e37_00006c_000323_801e38_00004c_000323_000304_801e39_00006c_000323_000304,
   0x801e3a_00004c_000331_801e3b_00006c_000331_801e3c_00004c_00032d_801e3d_00006c_00032d,
   0x801e3e_00004d_000301_801e3f_00006d_000301_801e40_00004d_000307_801e41_00006d_000307,
   0x801e42_00004d_000323_801e43_00006d_000323_801e44_00004e_000307_801e45_00006e_000307,
   0x801e46_00004e_000323_801e47_00006e_000323_801e48_00004e_000331_801e49_00006e_000331,
   0x801e4a_00004e_00032d_801e4b_00006e_00032d_801e4c_00004f_000303_000301,
   0x801e4d_00006f_000303_000301_801e4e_00004f_000303_000308_801e4f_00006f_000303_000308,
   0x801e50_00004f_000304_000300_801e51_00006f_000304_000300_801e52_00004f_000304_000301,
   0x801e53_00006f_000304_000301_801e54_000050_000301_801e55_000070_000301_801e56_000050_000307,
   0x801e57_000070_000307_801e58_000052_000307_801e59_000072_000307_801e5a_000052_000323,
   0x801e5b_000072_000323_801e5c_000052_000323_000304_801e5d_000072_000323_000304,
   0x801e5e_000052_000331_801e5f_000072_000331_801e60_000053_000307_801e61_000073_000307,
   0x801e62_000053_000323_801e63_000073_000323_801e64_000053_000301_000307,
   0x801e65_000073_000301_000307_801e66_000053_00030c_000307_801e67_000073_00030c_000307,
   0x801e68_000053_000323_000307_801e69_000073_000323_000307_801e6a_000054_000307,
   0x801e6b_000074_000307_801e6c_000054_000323_801e6d_000074_000323_801e6e_000054_000331,
   0x801e6f_000074_000331_801e70_000054_00032d_801e71_000074_00032d_801e72_000055_000324,
   0x801e73_000075_000324_801e74_000055_000330_801e75_000075_000330_801e76_000055_00032d,
   0x801e77_000075_00032d_801e78_000055_000303_000301_801e79_000075_000303_000301,
   0x801e7a_000055_000304_000308_801e7b_000075_000304_000308_801e7c_000056_000303,
   0x801e7d_000076_000303_801e7e_000056_000323_801e7f_000076_000323_801e80_000057_000300,
   0x801e81_000077_000300_801e82_000057_000301_801e83_000077_000301_801e84_000057_000308,
   0x801e85_000077_000308_801e86_000057_000307_801e87_000077_000307_801e88_000057_000323,
   0x801e89_000077_000323_801e8a_000058_000307_801e8b_000078_000307_801e8c_000058_000308,
   0x801e8d_000078_000308_801e8e_000059_000307_801e8f_000079_000307_801e90_00005a_000302,
   0x801e91_00007a_000302_801e92_00005a_000323_801e93_00007a_000323_801e94_00005a_000331,
   0x801e95_00007a_000331_801e96_000068_000331_801e97_000074_000308_801e98_000077_00030a,
   0x801e99_000079_00030a_801e9b_00017f_000307_801ea0_000041_000323_801ea1_000061_000323,
   0x801ea2_000041_000309_801ea3_000061_000309_801ea4_000041_000302_000301,
   0x801ea5_000061_000302_000301_801ea6_000041_000302_000300_801ea7_000061_000302_000300,
   0x801ea8_000041_000302_000309_801ea9_000061_000302_000309_801eaa_000041_000302_000303,
   0x801eab_000061_000302_000303_801eac_000041_000323_000302_801ead_000061_000323_000302,
   0x801eae_000041_000306_000301_801eaf_000061_000306_000301_801eb0_000041_000306_000300,
   0x801eb1_000061_000306_000300_801eb2_000041_000306_000309_801eb3_000061_000306_000309,
   0x801eb4_000041_000306_000303_801eb5_000061_000306_000303_801eb6_000041_000323_000306,
   0x801eb7_000061_000323_000306_801eb8_000045_000323_801eb9_000065_000323_801eba_000045_000309,
   0x801ebb_000065_000309_801ebc_000045_000303_801ebd_000065_000303_801ebe_000045_000302_000301,
   0x801ebf_000065_000302_000301_801ec0_000045_000302_000300_801ec1_000065_000302_000300,
   0x801ec2_000045_000302_000309_801ec3_000065_000302_000309_801ec4_000045_000302_000303,
   0x801ec5_000065_000302_000303_801ec6_000045_000323_000302_801ec7_000065_000323_000302,
   0x801ec8_000049_000309_801ec9_000069_000309_801eca_000049_000323_801ecb_000069_000323,
   0x801ecc_00004f_000323_801ecd_00006f_000323_801ece_00004f_000309_801ecf_00006f_000309,
   0x801ed0_00004f_000302_000301_801ed1_00006f_000302_000301_801ed2_00004f_000302_000300,
   0x801ed3_00006f_000302_000300_801ed4_00004f_000302_000309_801ed5_00006f_000302_000309,
   0x801ed6_00004f_000302_000303_801ed7_00006f_000302_000303_801ed8_00004f_000323_000302,
   0x801ed9_00006f_000323_000302_801eda_00004f_00031b_000301_801edb_00006f_00031b_000301,
   0x801edc_00004f_00031b_000300_801edd_00006f_00031b_000300_801ede_00004f_00031b_000309,
   0x801edf_00006f_00031b_000309_801ee0_00004f_00031b_000303_801ee1_00006f_00031b_000303,
   0x801ee2_00004f_00031b_000323_801ee3_00006f_00031b_000323_801ee4_000055_000323,
   0x801ee5_000075_000323_801ee6_000055_000309_801ee7_000075_000309_801ee8_000055_00031b_000301,
   0x801ee9_000075_00031b_000301_801eea_000055_00031b_000300_801eeb_000075_00031b_000300,
   0x801eec_000055_00031b_000309_801eed_000075_00031b_000309_801eee_000055_00031b_000303,
   0x801eef_000075_00031b_000303_801ef0_000055_00031b_000323_801ef1_000075_00031b_000323,
   0x801ef2_000059_000300_801ef3_000079_000300_801ef4_000059_000323_801ef5_000079_000323,
   0x801ef6_000059_000309_801ef7_000079_000309_801ef8_000059_000303_801ef9_000079_000303,
   0x801f00_0003b1_000313_801f01_0003b1_000314_801f02_0003b1_000313_000300,
   0x801f03_0003b1_000314_000300_801f04_0003b1_000313_000301_801f05_0003b1_000314_000301,
   0x801f06_0003b1_000313_000342_801f07_0003b1_000314_000342_801f08_000391_000313,
   0x801f09_000391_000314_801f0a_000391_000313_000300_801f0b_000391_000314_000300,
   0x801f0c_000391_000313_000301_801f0d_000391_000314_000301_801f0e_000391_000313_000342,
   0x801f0f_000391_000314_000342_801f10_0003b5_000313_801f11_0003b5_000314,
   0x801f12_0003b5_000313_000300_801f13_0003b5_000314_000300_801f14_0003b5_000313_000301,
   0x801f15_0003b5_000314_000301_801f18_000395_000313_801f19_000395_000314,
   0x801f1a_000395_000313_000300_801f1b_000395_000314_000300_801f1c_000395_000313_000301,
   0x801f1d_000395_000314_000301_801f20_0003b7_000313_801f21_0003b7_000314,
   0x801f22_0003b7_000313_000300_801f23_0003b7_000314_000300_801f24_0003b7_000313_000301,
   0x801f25_0003b7_000314_000301_801f26_0003b7_000313_000342_801f27_0003b7_000314_000342,
   0x801f28_000397_000313_801f29_000397_000314_801f2a_000397_000313_000300,
   0x801f2b_000397_000314_000300_801f2c_000397_000313_000301_801f2d_000397_000314_000301,
   0x801f2e_000397_000313_000342_801f2f_000397_000314_000342_801f30_0003b9_000313,
   0x801f31_0003b9_000314_801f32_0003b9_000313_000300_801f33_0003b9_000314_000300,
   0x801f34_0003b9_000313_000301_801f35_0003b9_000314_000301_801f36_0003b9_000313_000342,
   0x801f37_0003b9_000314_000342_801f38_000399_000313_801f39_000399_000314,
   0x801f3a_000399_000313_000300_801f3b_000399_000314_000300_801f3c_000399_000313_000301,
   0x801f3d_000399_000314_000301_801f3e_000399_000313_000342_801f3f_000399_000314_000342,
   0x801f40_0003bf_000313_801f41_0003bf_000314_801f42_0003bf_000313_000300,
   0x801f43_0003bf_000314_000300_801f44_0003bf_000313_000301_801f45_0003bf_000314_000301,
   0x801f48_00039f_000313_801f49_00039f_000314_801f4a_00039f_000313_000300,
   0x801f4b_00039f_000314_000300_801f4c_00039f_000313_000301_801f4d_00039f_000314_000301,
   0x801f50_0003c5_000313_801f51_0003c5_000314_801f52_0003c5_000313_000300,
   0x801f53_0003c5_000314_000300_801f54_0003c5_000313_000301_801f55_0003c5_000314_000301,
   0x801f56_0003c5_000313_000342_801f57_0003c5_000314_000342_801f59_0003a5_000314,
   0x801f5b_0003a5_000314_000300_801f5d_0003a5_000314_000301_801f5f_0003a5_000314_000342,
   0x801f60_0003c9_000313_801f61_0003c9_000314_801f62_0003c9_000313_000300,
   0x801f63_0003c9_000314_000300_801f64_0003c9_000313_000301_801f65_0003c9_000314_000301,
   0x801f66_0003c9_000313_000342_801f67_0003c9_000314_000342_801f68_0003a9_000313,
   0x801f69_0003a9_000314_801f6a_0003a9_000313_000300_801f6b_0003a9_000314_000300,
   0x801f6c_0003a9_000313_000301_801f6d_0003a9_000314_000301_801f6e_0003a9_000313_000342,
   0x801f6f_0003a9_000314_000342_801f70_0003b1_000300_801f71_0003b1_000301_801f72_0003b5_000300,
   0x801f73_0003b5_000301_801f74_0003b7_000300_801f75_0003b7_000301_801f76_0003b9_000300,
   0x801f77_0003b9_000301_801f78_0003bf_000300_801f79_0003bf_000301_801f7a_0003c5_000300,
   0x801f7b_0003c5_000301_801f7c_0003c9_000300_801f7d_0003c9_000301_801f80_0003b1_000313_000345,
   0x801f81_0003b1_000314_000345_801f82_0003b1_000313_000300_000345,
   0x801f83_0003b1_000314_000300_000345_801f84_0003b1_000313_000301_000345,
   0x801f85_0003b1_000314_000301_000345_801f86_0003b1_000313_000342_000345,
   0x801f87_0003b1_000314_000342_000345_801f88_000391_000313_000345_801f89_000391_000314_000345,
   0x801f8a_000391_000313_000300_000345_801f8b_000391_000314_000300_000345,
   0x801f8c_000391_000313_000301_000345_801f8d_000391_000314_000301_000345,
   0x801f8e_000391_000313_000342_000345_801f8f_000391_000314_000342_000345,
   0x801f90_0003b7_000313_000345_801f91_0003b7_000314_000345_801f92_0003b7_000313_000300_000345,
   0x801f93_0003b7_000314_000300_000345_801f94_0003b7_000313_000301_000345,
   0x801f95_0003b7_000314_000301_000345_801f96_0003b7_000313_000342_000345,
   0x801f97_0003b7_000314_000342_000345_801f98_000397_000313_000345_801f99_000397_000314_000345,
   0x801f9a_000397_000313_000300_000345_801f9b_000397_000314_000300_000345,
   0x801f9c_000397_000313_000301_000345_801f9d_000397_000314_000301_000345,
   0x801f9e_000397_000313_000342_000345_801f9f_000397_000314_000342_000345,
   0x801fa0_0003c9_000313_000345_801fa1_0003c9_000314_000345_801fa2_0003c9_000313_000300_000345,
   0x801fa3_0003c9_000314_000300_000345_801fa4_0003c9_000313_000301_000345,
   0x801fa5_0003c9_000314_000301_000345_801fa6_0003c9_000313_000342_000345,
   0x801fa7_0003c9_000314_000342_000345_801fa8_0003a9_000313_000345_801fa9_0003a9_000314_000345,
   0x801faa_0003a9_000313_000300_000345_801fab_0003a9_000314_000300_000345,
   0x801fac_0003a9_000313_000301_000345_801fad_0003a9_000314_000301_000345,
   0x801fae_0003a9_000313_000342_000345_801faf_0003a9_000314_000342_000345_801fb0_0003b1_000306,
   0x801fb1_0003b1_000304_801fb2_0003b1_000300_000345_801fb3_0003b1_000345,
   0x801fb4_0003b1_000301_000345_801fb6_0003b1_000342_801fb7_0003b1_000342_000345,
   0x801fb8_000391_000306_801fb9_000391_000304_801fba_000391_000300_801fbb_000391_000301,
   0x801fbc_000391_000345_801fbe_0003b9_801fc1_0000a8_000342_801fc2_0003b7_000300_000345,
   0x801fc3_0003b7_000345_801fc4_0003b7_000301_000345_801fc6_0003b7_000342,
   0x801fc7_0003b7_000342_000345_801fc8_000395_000300_801fc9_000395_000301_801fca_000397_000300,
   0x801fcb_000397_000301_801fcc_000397_000345_801fcd_001fbf_000300_801fce_001fbf_000301,
   0x801fcf_001fbf_000342_801fd0_0003b9_000306_801fd1_0003b9_000304_801fd2_0003b9_000308_000300,
   0x801fd3_0003b9_000308_000301_801fd6_0003b9_000342_801fd7_0003b9_000308_000342,
   0x801fd8_000399_000306_801fd9_000399_000304_801fda_000399_000300_801fdb_000399_000301,
   0x801fdd_001ffe_000300_801fde_001ffe_000301_801fdf_001ffe_000342_801fe0_0003c5_000306,
   0x801fe1_0003c5_000304_801fe2_0003c5_000308_000300_801fe3_0003c5_000308_000301,
   0x801fe4_0003c1_000313_801fe5_0003c1_000314_801fe6_0003c5_000342_801fe7_0003c5_000308_000342,
   0x801fe8_0003a5_000306_801fe9_0003a5_000304_801fea_0003a5_000300_801feb_0003a5_000301,
   0x801fec_0003a1_000314_801fed_0000a8_000300_801fee_0000a8_000301_801fef_000060,
   0x801ff2_0003c9_000300_000345_801ff3_0003c9_000345_801ff4_0003c9_000301_000345,
   0x801ff6_0003c9_000342_801ff7_0003c9_000342_000345_801ff8_00039f_000300_801ff9_00039f_000301,
   0x801ffa_0003a9_000300_801ffb_0003a9_000301_801ffc_0003a9_000345_801ffd_0000b4_802000_002002,
   0x802001_002003_802126_0003a9_80212a_00004b_80212b_000041_00030a_80219a_002190_000338,
   0x80219b_002192_000338_8021ae_002194_000338_8021cd_0021d0_000338_8021ce_0021d4_000338,
   0x8021cf_0021d2_000338_802204_002203_000338_802209_002208_000338_80220c_00220b_000338,
   0x802224_002223_000338_802226_002225_000338_802241_00223c_000338_802244_002243_000338,
   0x802247_002245_000338_802249_002248_000338_802260_00003d_000338_802262_002261_000338,
   0x80226d_00224d_000338_80226e_00003c_000338_80226f_00003e_000338_802270_002264_000338,
   0x802271_002265_000338_802274_002272_000338_802275_002273_000338_802278_002276_000338,
   0x802279_002277_000338_802280_00227a_000338_802281_00227b_000338_802284_002282_000338,
   0x802285_002283_000338_802288_002286_000338_802289_002287_000338_8022ac_0022a2_000338,
   0x8022ad_0022a8_000338_8022ae_0022a9_000338_8022af_0022ab_000338_8022e0_00227c_000338,
   0x8022e1_00227d_000338_8022e2_002291_000338_8022e3_002292_000338_8022ea_0022b2_000338,
   0x8022eb_0022b3_000338_8022ec_0022b4_000338_8022ed_0022b5_000338_802329_003008_80232a_003009,
   0x802adc_002add_000338_80304c_00304b_003099_80304e_00304d_003099_803050_00304f_003099,
   0x803052_003051_003099_803054_003053_003099_803056_003055_003099_803058_003057_003099,
   0x80305a_003059_003099_80305c_00305b_003099_80305e_00305d_003099_803060_00305f_003099,
   0x803062_003061_003099_803065_003064_003099_803067_003066_003099_803069_003068_003099,
   0x803070_00306f_003099_803071_00306f_00309a_803073_003072_003099_803074_003072_00309a,
   0x803076_003075_003099_803077_003075_00309a_803079_003078_003099_80307a_003078_00309a,
   0x80307c_00307b_003099_80307d_00307b_00309a_803094_003046_003099_80309e_00309d_003099,
   0x8030ac_0030ab_003099_8030ae_0030ad_003099_8030b0_0030af_003099_8030b2_0030b1_003099,
   0x8030b4_0030b3_003099_8030b6_0030b5_003099_8030b8_0030b7_003099_8030ba_0030b9_003099,
   0x8030bc_0030bb_003099_8030be_0030bd_003099_8030c0_0030bf_003099_8030c2_0030c1_003099,
   0x8030c5_0030c4_003099_8030c7_0030c6_003099_8030c9_0030c8_003099_8030d0_0030cf_003099,
   0x8030d1_0030cf_00309a_8030d3_0030d2_003099_8030d4_0030d2_00309a_8030d6_0030d5_003099,
   0x8030d7_0030d5_00309a_8030d9_0030d8_003099_8030da_0030d8_00309a_8030dc_0030db_003099,
   0x8030dd_0030db_00309a_8030f4_0030a6_003099_8030f7_0030ef_003099_8030f8_0030f0_003099,
   0x8030f9_0030f1_003099_8030fa_0030f2_003099_8030fe_0030fd_003099_80f900_008c48_80f901_0066f4,
   0x80f902_008eca_80f903_008cc8_80f904_006ed1_80f905_004e32_80f906_0053e5_80f907_009f9c,
   0x80f908_009f9c_80f909_005951_80f90a_0091d1_80f90b_005587_80f90c_005948_80f90d_0061f6,
   0x80f90e_007669_80f90f_007f85_80f910_00863f_80f911_0087ba_80f912_0088f8_80f913_00908f,
   0x80f914_006a02_80f915_006d1b_80f916_0070d9_80f917_0073de_80f918_00843d_80f919_00916a,
   0x80f91a_0099f1_80f91b_004e82_80f91c_005375_80f91d_006b04_80f91e_00721b_80f91f_00862d,
   0x80f920_009e1e_80f921_005d50_80f922_006feb_80f923_0085cd_80f924_008964_80f925_0062c9,
   0x80f926_0081d8_80f927_00881f_80f928_005eca_80f929_006717_80f92a_006d6a_80f92b_0072fc,
   0x80f92c_0090ce_80f92d_004f86_80f92e_0051b7_80f92f_0052de_80f930_0064c4_80f931_006ad3,
   0x80f932_007210_80f933_0076e7_80f934_008001_80f935_008606_80f936_00865c_80f937_008def,
   0x80f938_009732_80f939_009b6f_80f93a_009dfa_80f93b_00788c_80f93c_00797f_80f93d_007da0,
   0x80f93e_0083c9_80f93f_009304_80f940_009e7f_80f941_008ad6_80f942_0058df_80f943_005f04,
   0x80f944_007c60_80f945_00807e_80f946_007262_80f947_0078ca_80f948_008cc2_80f949_0096f7,
   0x80f94a_0058d8_80f94b_005c62_80f94c_006a13_80f94d_006dda_80f94e_006f0f_80f94f_007d2f,
   0x80f950_007e37_80f951_00964b_80f952_0052d2_80f953_00808b_80f954_0051dc_80f955_0051cc,
   0x80f956_007a1c_80f957_007dbe_80f958_0083f1_80f959_009675_80f95a_008b80_80f95b_0062cf,
   0x80f95c_006a02_80f95d_008afe_80f95e_004e39_80f95f_005be7_80f960_006012_80f961_007387,
   0x80f962_007570_80f963_005317_80f964_0078fb_80f965_004fbf_80f966_005fa9_80f967_004e0d,
   0x80f968_006ccc_80f969_006578_80f96a_007d22_80f96b_0053c3_80f96c_00585e_80f96d_007701,
   0x80f96e_008449_80f96f_008aaa_80f970_006bba_80f971_008fb0_80f972_006c88_80f973_0062fe,
   0x80f974_0082e5_80f975_0063a0_80f976_007565_80f977_004eae_80f978_005169_80f979_0051c9,
   0x80f97a_006881_80f97b_007ce7_80f97c_00826f_80f97d_008ad2_80f97e_0091cf_80f97f_0052f5,
   0x80f980_005442_80f981_005973_80f982_005eec_80f983_0065c5_80f984_006ffe_80f985_00792a,
   0x80f986_0095ad_80f987_009a6a_80f988_009e97_80f989_009ece_80f98a_00529b_80f98b_0066c6,
   0x80f98c_006b77_80f98d_008f62_80f98e_005e74_80f98f_006190_80f990_006200_80f991_00649a,
   0x80f992_006f23_80f993_007149_80f994_007489_80f995_0079ca_80f996_007df4_80f997_00806f,
   0x80f998_008f26_80f999_0084ee_80f99a_009023_80f99b_00934a_80f99c_005217_80f99d_0052a3,
   0x80f99e_0054bd_80f99f_0070c8_80f9a0_0088c2_80f9a1_008aaa_80f9a2_005ec9_80f9a3_005ff5,
   0x80f9a4_00637b_80f9a5_006bae_80f9a6_007c3e_80f9a7_007375_80f9a8_004ee4_80f9a9_0056f9,
   0x80f9aa_005be7_80f9ab_005dba_80f9ac_00601c_80f9ad_0073b2_80f9ae_007469_80f9af_007f9a,
   0x80f9b0_008046_80f9b1_009234_80f9b2_0096f6_80f9b3_009748_80f9b4_009818_80f9b5_004f8b,
   0x80f9b6_0079ae_80f9b7_0091b4_80f9b8_0096b8_80f9b9_0060e1_80f9ba_004e86_80f9bb_0050da,
   0x80f9bc_005bee_80f9bd_005c3f_80f9be_006599_80f9bf_006a02_80f9c0_0071ce_80f9c1_007642,
   0x80f9c2_0084fc_80f9c3_00907c_80f9c4_009f8d_80f9c5_006688_80f9c6_00962e_80f9c7_005289,
   0x80f9c8_00677b_80f9c9_0067f3_80f9ca_006d41_80f9cb_006e9c_80f9cc_007409_80f9cd_007559,
   0x80f9ce_00786b_80f9cf_007d10_80f9d0_00985e_80f9d1_00516d_80f9d2_00622e_80f9d3_009678,
   0x80f9d4_00502b_80f9d5_005d19_80f9d6_006dea_80f9d7_008f2a_80f9d8_005f8b_80f9d9_006144,
   0x80f9da_006817_80f9db_007387_80f9dc_009686_80f9dd_005229_80f9de_00540f_80f9df_005c65,
   0x80f9e0_006613_80f9e1_00674e_80f9e2_0068a8_80f9e3_006ce5_80f9e4_007406_80f9e5_0075e2,
   0x80f9e6_007f79_80f9e7_0088cf_80f9e8_0088e1_80f9e9_0091cc_80f9ea_0096e2_80f9eb_00533f,
   0x80f9ec_006eba_80f9ed_00541d_80f9ee_0071d0_80f9ef_007498_80f9f0_0085fa_80f9f1_0096a3,
   0x80f9f2_009c57_80f9f3_009e9f_80f9f4_006797_80f9f5_006dcb_80f9f6_0081e8_80f9f7_007acb,
   0x80f9f8_007b20_80f9f9_007c92_80f9fa_0072c0_80f9fb_007099_80f9fc_008b58_80f9fd_004ec0,
   0x80f9fe_008336_80f9ff_00523a_80fa00_005207_80fa01_005ea6_80fa02_0062d3_80fa03_007cd6,
   0x80fa04_005b85_80fa05_006d1e_80fa06_0066b4_80fa07_008f3b_80fa08_00884c_80fa09_00964d,
   0x80fa0a_00898b_80fa0b_005ed3_80fa0c_005140_80fa0d_0055c0_80fa10_00585a_80fa12_006674,
   0x80fa15_0051de_80fa16_00732a_80fa17_0076ca_80fa18_00793c_80fa19_00795e_80fa1a_007965,
   0x80fa1b_00798f_80fa1c_009756_80fa1d_007cbe_80fa1e_007fbd_80fa20_008612_80fa22_008af8,
   0x80fa25_009038_80fa26_0090fd_80fa2a_0098ef_80fa2b_0098fc_80fa2c_009928_80fa2d_009db4,
   0x80fa2e_0090de_80fa2f_0096b7_80fa30_004fae_80fa31_0050e7_80fa32_00514d_80fa33_0052c9,
   0x80fa34_0052e4_80fa35_005351_80fa36_00559d_80fa37_005606_80fa38_005668_80fa39_005840,
   0x80fa3a_0058a8_80fa3b_005c64_80fa3c_005c6e_80fa3d_006094_80fa3e_006168_80fa3f_00618e,
   0x80fa40_0061f2_80fa41_00654f_80fa42_0065e2_80fa43_006691_80fa44_006885_80fa45_006d77,
   0x80fa46_006e1a_80fa47_006f22_80fa48_00716e_80fa49_00722b_80fa4a_007422_80fa4b_007891,
   0x80fa4c_00793e_80fa4d_007949_80fa4e_007948_80fa4f_007950_80fa50_007956_80fa51_00795d,
   0x80fa52_00798d_80fa53_00798e_80fa54_007a40_80fa55_007a81_80fa56_007bc0_80fa57_007df4,
   0x80fa58_007e09_80fa59_007e41_80fa5a_007f72_80fa5b_008005_80fa5c_0081ed_80fa5d_008279,
   0x80fa5e_008279_80fa5f_008457_80fa60_008910_80fa61_008996_80fa62_008b01_80fa63_008b39,
   0x80fa64_008cd3_80fa65_008d08_80fa66_008fb6_80fa67_009038_80fa68_0096e3_80fa69_0097ff,
   0x80fa6a_00983b_80fa6b_006075_80fa6c_0242ee_80fa6d_008218_80fa70_004e26_80fa71_0051b5,
   0x80fa72_005168_80fa73_004f80_80fa74_005145_80fa75_005180_80fa76_0052c7_80fa77_0052fa,
   0x80fa78_00559d_80fa79_005555_80fa7a_005599_80fa7b_0055e2_80fa7c_00585a_80fa7d_0058b3,
   0x80fa7e_005944_80fa7f_005954_80fa80_005a62_80fa81_005b28_80fa82_005ed2_80fa83_005ed9,
   0x80fa84_005f69_80fa85_005fad_80fa86_0060d8_80fa87_00614e_80fa88_006108_80fa89_00618e,
   0x80fa8a_006160_80fa8b_0061f2_80fa8c_006234_80fa8d_0063c4_80fa8e_00641c_80fa8f_006452,
   0x80fa90_006556_80fa91_006674_80fa92_006717_80fa93_00671b_80fa94_006756_80fa95_006b79,
   0x80fa96_006bba_80fa97_006d41_80fa98_006edb_80fa99_006ecb_80fa9a_006f22_80fa9b_00701e,
   0x80fa9c_00716e_80fa9d_0077a7_80fa9e_007235_80fa9f_0072af_80faa0_00732a_80faa1_007471,
   0x80faa2_007506_80faa3_00753b_80faa4_00761d_80faa5_00761f_80faa6_0076ca_80faa7_0076db,
   0x80faa8_0076f4_80faa9_00774a_80faaa_007740_80faab_0078cc_80faac_007ab1_80faad_007bc0,
   0x80faae_007c7b_80faaf_007d5b_80fab0_007df4_80fab1_007f3e_80fab2_008005_80fab3_008352,
   0x80fab4_0083ef_80fab5_008779_80fab6_008941_80fab7_008986_80fab8_008996_80fab9_008abf,
   0x80faba_008af8_80fabb_008acb_80fabc_008b01_80fabd_008afe_80fabe_008aed_80fabf_008b39,
   0x80fac0_008b8a_80fac1_008d08_80fac2_008f38_80fac3_009072_80fac4_009199_80fac5_009276,
   0x80fac6_00967c_80fac7_0096e3_80fac8_009756_80fac9_0097db_80faca_0097ff_80facb_00980b,
   0x80facc_00983b_80facd_009b12_80face_009f9c_80facf_02284a_80fad0_022844_80fad1_0233d5,
   0x80fad2_003b9d_80fad3_004018_80fad4_004039_80fad5_025249_80fad6_025cd0_80fad7_027ed3,
   0x80fad8_009f43_80fad9_009f8e_80fb1d_0005d9_0005b4_80fb1f_0005f2_0005b7_80fb2a_0005e9_0005c1,
   0x80fb2b_0005e9_0005c2_80fb2c_0005e9_0005bc_0005c1_80fb2d_0005e9_0005bc_0005c2,
   0x80fb2e_0005d0_0005b7_80fb2f_0005d0_0005b8_80fb30_0005d0_0005bc_80fb31_0005d1_0005bc,
   0x80fb32_0005d2_0005bc_80fb33_0005d3_0005bc_80fb34_0005d4_0005bc_80fb35_0005d5_0005bc,
   0x80fb36_0005d6_0005bc_80fb38_0005d8_0005bc_80fb39_0005d9_0005bc_80fb3a_0005da_0005bc,
   0x80fb3b_0005db_0005bc_80fb3c_0005dc_0005bc_80fb3e_0005de_0005bc_80fb40_0005e0_0005bc,
   0x80fb41_0005e1_0005bc_80fb43_0005e3_0005bc_80fb44_0005e4_0005bc_80fb46_0005e6_0005bc,
   0x80fb47_0005e7_0005bc_80fb48_0005e8_0005bc_80fb49_0005e9_0005bc_80fb4a_0005ea_0005bc,
   0x80fb4b_0005d5_0005b9_80fb4c_0005d1_0005bf_80fb4d_0005db_0005bf_80fb4e_0005e4_0005bf,
   0x81109a_011099_0110ba_81109c_01109b_0110ba_8110ab_0110a5_0110ba_81112e_011131_011127,
   0x81112f_011132_011127_81134b_011347_01133e_81134c_011347_011357_8114bb_0114b9_0114ba,
   0x8114bc_0114b9_0114b0_8114be_0114b9_0114bd_8115ba_0115b8_0115af_8115bb_0115b9_0115af,
   0x811938_011935_011930_81d15e_01d157_01d165_81d15f_01d158_01d165_81d160_01d158_01d165_01d16e,
   0x81d161_01d158_01d165_01d16f_81d162_01d158_01d165_01d170_81d163_01d158_01d165_01d171,
   0x81d164_01d158_01d165_01d172_81d1bb_01d1b9_01d165_81d1bc_01d1ba_01d165,
   0x81d1bd_01d1b9_01d165_01d16e_81d1be_01d1ba_01d165_01d16e_81d1bf_01d1b9_01d165_01d16f,
   0x81d1c0_01d1ba_01d165_01d16f_82f800_004e3d_82f801_004e38_82f802_004e41_82f803_020122,
   0x82f804_004f60_82f805_004fae_82f806_004fbb_82f807_005002_82f808_00507a_82f809_005099,
   0x82f80a_0050e7_82f80b_0050cf_82f80c_00349e_82f80d_02063a_82f80e_00514d_82f80f_005154,
   0x82f810_005164_82f811_005177_82f812_02051c_82f813_0034b9_82f814_005167_82f815_00518d,
   0x82f816_02054b_82f817_005197_82f818_0051a4_82f819_004ecc_82f81a_0051ac_82f81b_0051b5,
   0x82f81c_0291df_82f81d_0051f5_82f81e_005203_82f81f_0034df_82f820_00523b_82f821_005246,
   0x82f822_005272_82f823_005277_82f824_003515_82f825_0052c7_82f826_0052c9_82f827_0052e4,
   0x82f828_0052fa_82f829_005305_82f82a_005306_82f82b_005317_82f82c_005349_82f82d_005351,
   0x82f82e_00535a_82f82f_005373_82f830_00537d_82f831_00537f_82f832_00537f_82f833_00537f,
   0x82f834_020a2c_82f835_007070_82f836_0053ca_82f837_0053df_82f838_020b63_82f839_0053eb,
   0x82f83a_0053f1_82f83b_005406_82f83c_00549e_82f83d_005438_82f83e_005448_82f83f_005468,
   0x82f840_0054a2_82f841_0054f6_82f842_005510_82f843_005553_82f844_005563_82f845_005584,
   0x82f846_005584_82f847_005599_82f848_0055ab_82f849_0055b3_82f84a_0055c2_82f84b_005716,
   0x82f84c_005606_82f84d_005717_82f84e_005651_82f84f_005674_82f850_005207_82f851_0058ee,
   0x82f852_0057ce_82f853_0057f4_82f854_00580d_82f855_00578b_82f856_005832_82f857_005831,
   0x82f858_0058ac_82f859_0214e4_82f85a_0058f2_82f85b_0058f7_82f85c_005906_82f85d_00591a,
   0x82f85e_005922_82f85f_005962_82f860_0216a8_82f861_0216ea_82f862_0059ec_82f863_005a1b,
   0x82f864_005a27_82f865_0059d8_82f866_005a66_82f867_0036ee_82f868_0036fc_82f869_005b08,
   0x82f86a_005b3e_82f86b_005b3e_82f86c_0219c8_82f86d_005bc3_82f86e_005bd8_82f86f_005be7,
   0x82f870_005bf3_82f871_021b18_82f872_005bff_82f873_005c06_82f874_005f53_82f875_005c22,
   0x82f876_003781_82f877_005c60_82f878_005c6e_82f879_005cc0_82f87a_005c8d_82f87b_021de4,
   0x82f87c_005d43_82f87d_021de6_82f87e_005d6e_82f87f_005d6b_82f880_005d7c_82f881_005de1,
   0x82f882_005de2_82f883_00382f_82f884_005dfd_82f885_005e28_82f886_005e3d_82f887_005e69,
   0x82f888_003862_82f889_022183_82f88a_00387c_82f88b_005eb0_82f88c_005eb3_82f88d_005eb6,
   0x82f88e_005eca_82f88f_02a392_82f890_005efe_82f891_022331_82f892_022331_82f893_008201,
   0x82f894_005f22_82f895_005f22_82f896_0038c7_82f897_0232b8_82f898_0261da_82f899_005f62,
   0x82f89a_005f6b_82f89b_0038e3_82f89c_005f9a_82f89d_005fcd_82f89e_005fd7_82f89f_005ff9,
   0x82f8a0_006081_82f8a1_00393a_82f8a2_00391c_82f8a3_006094_82f8a4_0226d4_82f8a5_0060c7,
   0x82f8a6_006148_82f8a7_00614c_82f8a8_00614e_82f8a9_00614c_82f8aa_00617a_82f8ab_00618e,
   0x82f8ac_0061b2_82f8ad_0061a4_82f8ae_0061af_82f8af_0061de_82f8b0_0061f2_82f8b1_0061f6,
   0x82f8b2_006210_82f8b3_00621b_82f8b4_00625d_82f8b5_0062b1_82f8b6_0062d4_82f8b7_006350,
   0x82f8b8_022b0c_82f8b9_00633d_82f8ba_0062fc_82f8bb_006368_82f8bc_006383_82f8bd_0063e4,
   0x82f8be_022bf1_82f8bf_006422_82f8c0_0063c5_82f8c1_0063a9_82f8c2_003a2e_82f8c3_006469,
   0x82f8c4_00647e_82f8c5_00649d_82f8c6_006477_82f8c7_003a6c_82f8c8_00654f_82f8c9_00656c,
   0x82f8ca_02300a_82f8cb_0065e3_82f8cc_0066f8_82f8cd_006649_82f8ce_003b19_82f8cf_006691,
   0x82f8d0_003b08_82f8d1_003ae4_82f8d2_005192_82f8d3_005195_82f8d4_006700_82f8d5_00669c,
   0x82f8d6_0080ad_82f8d7_0043d9_82f8d8_006717_82f8d9_00671b_82f8da_006721_82f8db_00675e,
   0x82f8dc_006753_82f8dd_0233c3_82f8de_003b49_82f8df_0067fa_82f8e0_006785_82f8e1_006852,
   0x82f8e2_006885_82f8e3_02346d_82f8e4_00688e_82f8e5_00681f_82f8e6_006914_82f8e7_003b9d,
   0x82f8e8_006942_82f8e9_0069a3_82f8ea_0069ea_82f8eb_006aa8_82f8ec_0236a3_82f8ed_006adb,
   0x82f8ee_003c18_82f8ef_006b21_82f8f0_0238a7_82f8f1_006b54_82f8f2_003c4e_82f8f3_006b72,
   0x82f8f4_006b9f_82f8f5_006bba_82f8f6_006bbb_82f8f7_023a8d_82f8f8_021d0b_82f8f9_023afa,
   0x82f8fa_006c4e_82f8fb_023cbc_82f8fc_006cbf_82f8fd_006ccd_82f8fe_006c67_82f8ff_006d16,
   0x82f900_006d3e_82f901_006d77_82f902_006d41_82f903_006d69_82f904_006d78_82f905_006d85,
   0x82f906_023d1e_82f907_006d34_82f908_006e2f_82f909_006e6e_82f90a_003d33_82f90b_006ecb,
   0x82f90c_006ec7_82f90d_023ed1_82f90e_006df9_82f90f_006f6e_82f910_023f5e_82f911_023f8e,
   0x82f912_006fc6_82f913_007039_82f914_00701e_82f915_00701b_82f916_003d96_82f917_00704a,
   0x82f918_00707d_82f919_007077_82f91a_0070ad_82f91b_020525_82f91c_007145_82f91d_024263,
   0x82f91e_00719c_82f91f_0243ab_82f920_007228_82f921_007235_82f922_007250_82f923_024608,
   0x82f924_007280_82f925_007295_82f926_024735_82f927_024814_82f928_00737a_82f929_00738b,
   0x82f92a_003eac_82f92b_0073a5_82f92c_003eb8_82f92d_003eb8_82f92e_007447_82f92f_00745c,
   0x82f930_007471_82f931_007485_82f932_0074ca_82f933_003f1b_82f934_007524_82f935_024c36,
   0x82f936_00753e_82f937_024c92_82f938_007570_82f939_02219f_82f93a_007610_82f93b_024fa1,
   0x82f93c_024fb8_82f93d_025044_82f93e_003ffc_82f93f_004008_82f940_0076f4_82f941_0250f3,
   0x82f942_0250f2_82f943_025119_82f944_025133_82f945_00771e_82f946_00771f_82f947_00771f,
   0x82f948_00774a_82f949_004039_82f94a_00778b_82f94b_004046_82f94c_004096_82f94d_02541d,
   0x82f94e_00784e_82f94f_00788c_82f950_0078cc_82f951_0040e3_82f952_025626_82f953_007956,
   0x82f954_02569a_82f955_0256c5_82f956_00798f_82f957_0079eb_82f958_00412f_82f959_007a40,
   0x82f95a_007a4a_82f95b_007a4f_82f95c_02597c_82f95d_025aa7_82f95e_025aa7_82f95f_007aee,
   0x82f960_004202_82f961_025bab_82f962_007bc6_82f963_007bc9_82f964_004227_82f965_025c80,
   0x82f966_007cd2_82f967_0042a0_82f968_007ce8_82f969_007ce3_82f96a_007d00_82f96b_025f86,
   0x82f96c_007d63_82f96d_004301_82f96e_007dc7_82f96f_007e02_82f970_007e45_82f971_004334,
   0x82f972_026228_82f973_026247_82f974_004359_82f975_0262d9_82f976_007f7a_82f977_02633e,
   0x82f978_007f95_82f979_007ffa_82f97a_008005_82f97b_0264da_82f97c_026523_82f97d_008060,
   0x82f97e_0265a8_82f97f_008070_82f980_02335f_82f981_0043d5_82f982_0080b2_82f983_008103,
   0x82f984_00440b_82f985_00813e_82f986_005ab5_82f987_0267a7_82f988_0267b5_82f989_023393,
   0x82f98a_02339c_82f98b_008201_82f98c_008204_82f98d_008f9e_82f98e_00446b_82f98f_008291,
   0x82f990_00828b_82f991_00829d_82f992_0052b3_82f993_0082b1_82f994_0082b3_82f995_0082bd,
   0x82f996_0082e6_82f997_026b3c_82f998_0082e5_82f999_00831d_82f99a_008363_82f99b_0083ad,
   0x82f99c_008323_82f99d_0083bd_82f99e_0083e7_82f99f_008457_82f9a0_008353_82f9a1_0083ca,
   0x82f9a2_0083cc_82f9a3_0083dc_82f9a4_026c36_82f9a5_026d6b_82f9a6_026cd5_82f9a7_00452b,
   0x82f9a8_0084f1_82f9a9_0084f3_82f9aa_008516_82f9ab_0273ca_82f9ac_008564_82f9ad_026f2c,
   0x82f9ae_00455d_82f9af_004561_82f9b0_026fb1_82f9b1_0270d2_82f9b2_00456b_82f9b3_008650,
   0x82f9b4_00865c_82f9b5_008667_82f9b6_008669_82f9b7_0086a9_82f9b8_008688_82f9b9_00870e,
   0x82f9ba_0086e2_82f9bb_008779_82f9bc_008728_82f9bd_00876b_82f9be_008786_82f9bf_0045d7,
   0x82f9c0_0087e1_82f9c1_008801_82f9c2_0045f9_82f9c3_008860_82f9c4_008863_82f9c5_027667,
   0x82f9c6_0088d7_82f9c7_0088de_82f9c8_004635_82f9c9_0088fa_82f9ca_0034bb_82f9cb_0278ae,
   0x82f9cc_027966_82f9cd_0046be_82f9ce_0046c7_82f9cf_008aa0_82f9d0_008aed_82f9d1_008b8a,
   0x82f9d2_008c55_82f9d3_027ca8_82f9d4_008cab_82f9d5_008cc1_82f9d6_008d1b_82f9d7_008d77,
   0x82f9d8_027f2f_82f9d9_020804_82f9da_008dcb_82f9db_008dbc_82f9dc_008df0_82f9dd_0208de,
   0x82f9de_008ed4_82f9df_008f38_82f9e0_0285d2_82f9e1_0285ed_82f9e2_009094_82f9e3_0090f1,
   0x82f9e4_009111_82f9e5_02872e_82f9e6_00911b_82f9e7_009238_82f9e8_0092d7_82f9e9_0092d8,
   0x82f9ea_00927c_82f9eb_0093f9_82f9ec_009415_82f9ed_028bfa_82f9ee_00958b_82f9ef_004995,
   0x82f9f0_0095b7_82f9f1_028d77_82f9f2_0049e6_82f9f3_0096c3_82f9f4_005db2_82f9f5_009723,
   0x82f9f6_029145_82f9f7_02921a_82f9f8_004a6e_82f9f9_004a76_82f9fa_0097e0_82f9fb_02940a,
   0x82f9fc_004ab2_82f9fd_029496_82f9fe_00980b_82f9ff_00980b_82fa00_009829_82fa01_0295b6,
   0x82fa02_0098e2_82fa03_004b33_82fa04_009929_82fa05_0099a7_82fa06_0099c2_82fa07_0099fe,
   0x82fa08_004bce_82fa09_029b30_82fa0a_009b12_82fa0b_009c40_82fa0c_009cfd_82fa0d_004cce,
   0x82fa0e_004ced_82fa0f_009d67_82fa10_02a0ce_82fa11_004cf8_82fa12_02a105_82fa13_02a20e,
   0x82fa14_02a291_82fa15_009ebb_82fa16_004d56_82fa17_009ef9_82fa18_009efe_82fa19_009f05,
   0x82fa1a_009f0f_82fa1b_009f16_82fa1c_009f3b_82fa1d_02a600]

def pairs : Table := .ofRows <| (Table.rowsOf
  [0x80003c_000338_00226e_80003d_000338_002260_80003e_000338_00226f_800041_000300_0000c0,
   0x800041_000301_0000c1_800041_000302_0000c2_800041_000303_0000c3_800041_000304_000100,
   0x800041_000306_000102_800041_000307_000226_800041_000308_0000c4_800041_000309_001ea2,
   0x800041_00030a_0000c5_800041_00030c_0001cd_800041_00030f_000200_800041_000311_000202,
   0x800041_000323_001ea0_800041_000325_001e00_800041_000328_000104_800042_000307_001e02,
   0x800042_000323_001e04_800042_000331_001e06_800043_000301_000106_800043_000302_000108,
   0x800043_000307_00010a_800043_00030c_00010c_800043_000327_0000c7_800044_000307_001e0a,
   0x800044_00030c_00010e_800044_000323_001e0c_800044_000327_001e10_800044_00032d_001e12,
   0x800044_000331_001e0e_800045_000300_0000c8_800045_000301_0000c9_800045_000302_0000ca,
   0x800045_000303_001ebc_800045_000304_000112_800045_000306_000114_800045_000307_000116,
   0x800045_000308_0000cb_800045_000309_001eba_800045_00030c_00011a_800045_00030f_000204,
   0x800045_000311_000206_800045_000323_001eb8_800045_000327_000228_800045_000328_000118,
   0x800045_00032d_001e18_800045_000330_001e1a_800046_000307_001e1e_800047_000301_0001f4,
   0x800047_000302_00011c_800047_000304_001e20_800047_000306_00011e_800047_000307_000120,
   0x800047_00030c_0001e6_800047_000327_000122_800048_000302_000124_800048_000307_001e22,
   0x800048_000308_001e26_800048_00030c_00021e_800048_000323_001e24_800048_000327_001e28,
   0x800048_00032e_001e2a_800049_000300_0000cc_800049_000301_0000cd_800049_000302_0000ce,
   0x800049_000303_000128_800049_000304_00012a_800049_000306_00012c_800049_000307_000130,
   0x800049_000308_0000cf_800049_000309_001ec8_800049_00030c_0001cf_800049_00030f_000208,
   0x800049_000311_00020a_800049_000323_001eca_800049_000328_00012e_800049_000330_001e2c,
   0x80004a_000302_000134_80004b_000301_001e30_80004b_00030c_0001e8_80004b_000323_001e32,
   0x80004b_000327_000136_80004b_000331_001e34_80004c_000301_000139_80004c_00030c_00013d,
   0x80004c_000323_001e36_80004c_000327_00013b_80004c_00032d_001e3c_80004c_000331_001e3a,
   0x80004d_000301_001e3e_80004d_000307_001e40_80004d_000323_001e42_80004e_000300_0001f8,
   0x80004e_000301_000143_80004e_000303_0000d1_80004e_000307_001e44_80004e_00030c_000147,
   0x80004e_000323_001e46_80004e_000327_000145_80004e_00032d_001e4a_80004e_000331_001e48,
   0x80004f_000300_0000d2_80004f_000301_0000d3_80004f_000302_0000d4_80004f_000303_0000d5,
   0x80004f_000304_00014c_80004f_000306_00014e_80004f_000307_00022e_80004f_000308_0000d6,
   0x80004f_000309_001ece_80004f_00030b_000150_80004f_00030c_0001d1_80004f_00030f_00020c,
   0x80004f_000311_00020e_80004f_00031b_0001a0_80004f_000323_001ecc_80004f_000328_0001ea,
   0x800050_000301_001e54_800050_000307_001e56_800052_000301_000154_800052_000307_001e58,
   0x800052_00030c_000158_800052_00030f_000210_800052_000311_000212_800052_000323_001e5a,
   0x800052_000327_000156_800052_000331_001e5e_800053_000301_00015a_800053_000302_00015c,
   0x800053_000307_001e60_800053_00030c_000160_800053_000323_001e62_800053_000326_000218,
   0x800053_000327_00015e_800054_000307_001e6a_800054_00030c_000164_800054_000323_001e6c,
   0x800054_000326_00021a_800054_000327_000162_800054_00032d_001e70_800054_000331_001e6e,
   0x800055_000300_0000d9_800055_000301_0000da_800055_000302_0000db_800055_000303_000168,
   0x800055_000304_00016a_800055_000306_00016c_800055_000308_0000dc_800055_000309_001ee6,
   0x800055_00030a_00016e_800055_00030b_000170_800055_00030c_0001d3_800055_00030f_000214,
   0x800055_000311_000216_800055_00031b_0001af_800055_000323_001ee4_800055_000324_001e72,
   0x800055_000328_000172_800055_00032d_001e76_800055_000330_001e74_800056_000303_001e7c,
   0x800056_000323_001e7e_800057_000300_001e80_800057_000301_001e82_800057_000302_000174,
   0x800057_000307_001e86_800057_000308_001e84_800057_000323_001e88_800058_000307_001e8a,
   0x800058_000308_001e8c_800059_000300_001ef2_800059_000301_0000dd_800059_000302_000176,
   0x800059_000303_001ef8_800059_000304_000232_800059_000307_001e8e_800059_000308_000178,
   0x800059_000309_001ef6_800059_000323_001ef4_80005a_000301_000179_80005a_000302_001e90,
   0x80005a_000307_00017b_80005a_00030c_00017d_80005a_000323_001e92_80005a_000331_001e94,
   0x800061_000300_0000e0_800061_000301_0000e1_800061_000302_0000e2_800061_000303_0000e3,
   0x800061_000304_000101_800061_000306_000103_800061_000307_000227_800061_000308_0000e4,
   0x800061_000309_001ea3_800061_00030a_0000e5_800061_00030c_0001ce_800061_00030f_000201,
   0x800061_000311_000203_800061_000323_001ea1_800061_000325_001e01_800061_000328_000105,
   0x800062_000307_001e03_800062_000323_001e05_800062_000331_001e07_800063_000301_000107,
   0x800063_000302_000109_800063_000307_00010b_800063_00030c_00010d_800063_000327_0000e7,
   0x800064_000307_001e0b_800064_00030c_00010f_800064_000323_001e0d_800064_000327_001e11,
   0x800064_00032d_001e13_800064_000331_001e0f_800065_000300_0000e8_800065_000301_0000e9,
   0x800065_000302_0000ea_800065_000303_001ebd_800065_000304_000113_800065_000306_000115,
   0x800065_000307_000117_800065_000308_0000eb_800065_000309_001ebb_800065_00030c_00011b,
   0x800065_00030f_000205_800065_000311_000207_800065_000323_001eb9_800065_000327_000229,
   0x800065_000328_000119_800065_00032d_001e19_800065_000330_001e1b_800066_000307_001e1f,
   0x800067_000301_0001f5_800067_000302_00011d_800067_000304_001e21_800067_000306_00011f,
   0x800067_000307_000121_800067_00030c_0001e7_800067_000327_000123_800068_000302_000125,
   0x800068_000307_001e23_800068_000308_001e27_800068_00030c_00021f_800068_000323_001e25,
   0x800068_000327_001e29_800068_00032e_001e2b_800068_000331_001e96_800069_000300_0000ec,
   0x800069_000301_0000ed_800069_000302_0000ee_800069_000303_000129_800069_000304_00012b,
   0x800069_000306_00012d_800069_000308_0000ef_800069_000309_001ec9_800069_00030c_0001d0,
   0x800069_00030f_000209_800069_000311_00020b_800069_000323_001ecb_800069_000328_00012f,
   0x800069_000330_001e2d_80006a_000302_000135_80006a_00030c_0001f0_80006b_000301_001e31,
   0x80006b_00030c_0001e9_80006b_000323_001e33_80006b_000327_000137_80006b_000331_001e35,
   0x80006c_000301_00013a_80006c_00030c_00013e_80006c_000323_001e37_80006c_000327_00013c,
   0x80006c_00032d_001e3d_80006c_000331_001e3b_80006d_000301_001e3f_80006d_000307_001e41,
   0x80006d_000323_001e43_80006e_000300_0001f9_80006e_000301_000144_80006e_000303_0000f1,
   0x80006e_000307_001e45_80006e_00030c_000148_80006e_000323_001e47_80006e_000327_000146,
   0x80006e_00032d_001e4b_80006e_000331_001e49_80006f_000300_0000f2_80006f_000301_0000f3,
   0x80006f_000302_0000f4_80006f_000303_0000f5_80006f_000304_00014d_80006f_000306_00014f,
   0x80006f_000307_00022f_80006f_000308_0000f6_80006f_000309_001ecf_80006f_00030b_000151,
   0x80006f_00030c_0001d2_80006f_00030f_00020d_80006f_000311_00020f_80006f_00031b_0001a1,
   0x80006f_000323_001ecd_80006f_000328_0001eb_800070_000301_001e55_800070_000307_001e57,
   0x800072_000301_000155_800072_000307_001e59_800072_00030c_000159_800072_00030f_000211,
   0x800072_000311_000213_800072_000323_001e5b_800072_000327_000157_800072_000331_001e5f,
   0x800073_000301_00015b_800073_000302_00015d_800073_000307_001e61_800073_00030c_000161,
   0x800073_000323_001e63_800073_000326_000219_800073_000327_00015f_800074_000307_001e6b,
   0x800074_000308_001e97_800074_00030c_000165_800074_000323_001e6d_800074_000326_00021b,
   0x800074_000327_000163_800074_00032d_001e71_800074_000331_001e6f_800075_000300_0000f9,
   0x800075_000301_0000fa_800075_000302_0000fb_800075_000303_000169_800075_000304_00016b,
   0x800075_000306_00016d_800075_000308_0000fc_800075_000309_001ee7_800075_00030a_00016f,
   0x800075_00030b_000171_800075_00030c_0001d4_800075_00030f_000215_800075_000311_000217,
   0x800075_00031b_0001b0_800075_000323_001ee5_800075_000324_001e73_800075_000328_000173,
   0x800075_00032d_001e77_800075_000330_001e75_800076_000303_001e7d_800076_000323_001e7f,
   0x800077_000300_001e81_800077_000301_001e83_800077_000302_000175_800077_000307_001e87,
   0x800077_000308_001e85_800077_00030a_001e98_800077_000323_001e89_800078_000307_001e8b,
   0x800078_000308_001e8d_800079_000300_001ef3_800079_000301_0000fd_800079_000302_000177,
   0x800079_000303_001ef9_800079_000304_000233_800079_000307_001e8f_800079_000308_0000ff,
   0x800079_000309_001ef7_800079_00030a_001e99_800079_000323_001ef5_80007a_000301_00017a,
   0x80007a_000302_001e91_80007a_000307_00017c_80007a_00030c_00017e_80007a_000323_001e93,
   0x80007a_000331_001e95_8000a8_000300_001fed_8000a8_000301_000385_8000a8_000342_001fc1,
   0x8000c2_000300_001ea6_8000c2_000301_001ea4_8000c2_000303_001eaa_8000c2_000309_001ea8,
   0x8000c4_000304_0001de_8000c5_000301_0001fa_8000c6_000301_0001fc_8000c6_000304_0001e2,
   0x8000c7_000301_001e08_8000ca_000300_001ec0_8000ca_000301_001ebe_8000ca_000303_001ec4,
   0x8000ca_000309_001ec2_8000cf_000301_001e2e_8000d4_000300_001ed2_8000d4_000301_001ed0,
   0x8000d4_000303_001ed6_8000d4_000309_001ed4_8000d5_000301_001e4c_8000d5_000304_00022c,
   0x8000d5_000308_001e4e_8000d6_000304_00022a_8000d8_000301_0001fe_8000dc_000300_0001db,
   0x8000dc_000301_0001d7_8000dc_000304_0001d5_8000dc_00030c_0001d9_8000e2_000300_001ea7,
   0x8000e2_000301_001ea5_8000e2_000303_001eab_8000e2_000309_001ea9_8000e4_000304_0001df,
   0x8000e5_000301_0001fb_8000e6_000301_0001fd_8000e6_000304_0001e3_8000e7_000301_001e09,
   0x8000ea_000300_001ec1_8000ea_000301_001ebf_8000ea_000303_001ec5_8000ea_000309_001ec3,
   0x8000ef_000301_001e2f_8000f4_000300_001ed3_8000f4_000301_001ed1_8000f4_000303_001ed7,
   0x8000f4_000309_001ed5_8000f5_000301_001e4d_8000f5_000304_00022d_8000f5_000308_001e4f,
   0x8000f6_000304_00022b_8000f8_000301_0001ff_8000fc_000300_0001dc_8000fc_000301_0001d8,
   0x8000fc_000304_0001d6_8000fc_00030c_0001da_800102_000300_001eb0_800102_000301_001eae,
   0x800102_000303_001eb4_800102_000309_001eb2_800103_000300_001eb1_800103_000301_001eaf,
   0x800103_000303_001eb5_800103_000309_001eb3_800112_000300_001e14_800112_000301_001e16,
   0x800113_000300_001e15_800113_000301_001e17_80014c_000300_001e50_80014c_000301_001e52,
   0x80014d_000300_001e51_80014d_000301_001e53_80015a_000307_001e64_80015b_000307_001e65,
   0x800160_000307_001e66_800161_000307_001e67_800168_000301_001e78_800169_000301_001e79,
   0x80016a_000308_001e7a_80016b_000308_001e7b_80017f_000307_001e9b_8001a0_000300_001edc,
   0x8001a0_000301_001eda_8001a0_000303_001ee0_8001a0_000309_001ede_8001a0_000323_001ee2,
   0x8001a1_000300_001edd_8001a1_000301_001edb_8001a1_000303_001ee1_8001a1_000309_001edf,
   0x8001a1_000323_001ee3_8001af_000300_001eea_8001af_000301_001ee8_8001af_000303_001eee,
   0x8001af_000309_001eec_8001af_000323_001ef0_8001b0_000300_001eeb_8001b0_000301_001ee9,
   0x8001b0_000303_001eef_8001b0_000309_001eed_8001b0_000323_001ef1_8001b7_00030c_0001ee,
   0x8001ea_000304_0001ec_8001eb_000304_0001ed_800226_000304_0001e0_800227_000304_0001e1,
   0x800228_000306_001e1c_800229_000306_001e1d_80022e_000304_000230_80022f_000304_000231,
   0x800292_00030c_0001ef_800391_000300_001fba_800391_000301_000386_800391_000304_001fb9,
   0x800391_000306_001fb8_800391_000313_001f08_800391_000314_001f09_800391_000345_001fbc,
   0x800395_000300_001fc8_800395_000301_000388_800395_000313_001f18_800395_000314_001f19,
   0x800397_000300_001fca_800397_000301_000389_800397_000313_001f28_800397_000314_001f29,
   0x800397_000345_001fcc_800399_000300_001fda_800399_000301_00038a_800399_000304_001fd9,
   0x800399_000306_001fd8_800399_000308_0003aa_800399_000313_001f38_800399_000314_001f39,
   0x80039f_000300_001ff8_80039f_000301_00038c_80039f_000313_001f48_80039f_000314_001f49,
   0x8003a1_000314_001fec_8003a5_000300_001fea_8003a5_000301_00038e_8003a5_000304_001fe9,
   0x8003a5_000306_001fe8_8003a5_000308_0003ab_8003a5_000314_001f59_8003a9_000300_001ffa,
   0x8003a9_000301_00038f_8003a9_000313_001f68_8003a9_000314_001f69_8003a9_000345_001ffc,
   0x8003ac_000345_001fb4_8003ae_000345_001fc4_8003b1_000300_001f70_8003b1_000301_0003ac,
   0x8003b1_000304_001fb1_8003b1_000306_001fb0_8003b1_000313_001f00_8003b1_000314_001f01,
   0x8003b1_000342_001fb6_8003b1_000345_001fb3_8003b5_000300_001f72_8003b5_000301_0003ad,
   0x8003b5_000313_001f10_8003b5_000314_001f11_8003b7_000300_001f74_8003b7_000301_0003ae,
   0x8003b7_000313_001f20_8003b7_000314_001f21_8003b7_000342_001fc6_8003b7_000345_001fc3,
   0x8003b9_000300_001f76_8003b9_000301_0003af_8003b9_000304_001fd1_8003b9_000306_001fd0,
   0x8003b9_000308_0003ca_8003b9_000313_001f30_8003b9_000314_001f31_8003b9_000342_001fd6,
   0x8003bf_000300_001f78_8003bf_000301_0003cc_8003bf_000313_001f40_8003bf_000314_001f41,
   0x8003c1_000313_001fe4_8003c1_000314_001fe5_8003c5_000300_001f7a_8003c5_000301_0003cd,
   0x8003c5_000304_001fe1_8003c5_000306_001fe0_8003c5_000308_0003cb_8003c5_000313_001f50,
   0x8003c5_000314_001f51_8003c5_000342_001fe6_8003c9_000300_001f7c_8003c9_000301_0003ce,
   0x8003c9_000313_001f60_8003c9_000314_001f61_8003c9_000342_001ff6_8003c9_000345_001ff3,
   0x8003ca_000300_001fd2_8003ca_000301_000390_8003ca_000342_001fd7_8003cb_000300_001fe2,
   0x8003cb_000301_0003b0_8003cb_000342_001fe7_8003ce_000345_001ff4_8003d2_000301_0003d3,
   0x8003d2_000308_0003d4_800406_000308_000407_800410_000306_0004d0_800410_000308_0004d2,
   0x800413_000301_000403_800415_000300_000400_800415_000306_0004d6_800415_000308_000401,
   0x800416_000306_0004c1_800416_000308_0004dc_800417_000308_0004de_800418_000300_00040d,
   0x800418_000304_0004e2_800418_000306_000419_800418_000308_0004e4_80041a_000301_00040c,
   0x80041e_000308_0004e6_800423_000304_0004ee_800423_000306_00040e_800423_000308_0004f0,
   0x800423_00030b_0004f2_800427_000308_0004f4_80042b_000308_0004f8_80042d_000308_0004ec,
   0x800430_000306_0004d1_800430_000308_0004d3_800433_000301_000453_800435_000300_000450,
   0x800435_000306_0004d7_800435_000308_000451_800436_000306_0004c2_800436_000308_0004dd,
   0x800437_000308_0004df_800438_000300_00045d_800438_000304_0004e3_800438_000306_000439,
   0x800438_000308_0004e5_80043a_000301_00045c_80043e_000308_0004e7_800443_000304_0004ef,
   0x800443_000306_00045e_800443_000308_0004f1_800443_00030b_0004f3_800447_000308_0004f5,
   0x80044b_000308_0004f9_80044d_000308_0004ed_800456_000308_000457_800474_00030f_000476,
   0x800475_00030f_000477_8004d8_000308_0004da_8004d9_000308_0004db_8004e8_000308_0004ea,
   0x8004e9_000308_0004eb_800627_000653_000622_800627_000654_000623_800627_000655_000625,
   0x800648_000654_000624_80064a_000654_000626_8006c1_000654_0006c2_8006d2_000654_0006d3,
   0x8006d5_000654_0006c0_800928_00093c_000929_800930_00093c_000931_800933_00093c_000934,
   0x8009c7_0009be_0009cb_8009c7_0009d7_0009cc_800b47_000b3e_000b4b_800b47_000b56_000b48,
   0x800b47_000b57_000b4c_800b92_000bd7_000b94_800bc6_000bbe_000bca_800bc6_000bd7_000bcc,
   0x800bc7_000bbe_000bcb_800c46_000c56_000c48_800cbf_000cd5_000cc0_800cc6_000cc2_000cca,
   0x800cc6_000cd5_000cc7_800cc6_000cd6_000cc8_800cca_000cd5_000ccb_800d46_000d3e_000d4a,
   0x800d46_000d57_000d4c_800d47_000d3e_000d4b_800dd9_000dca_000dda_800dd9_000dcf_000ddc,
   0x800dd9_000ddf_000dde_800ddc_000dca_000ddd_801025_00102e_001026_801b05_001b35_001b06,
   0x801b07_001b35_001b08_801b09_001b35_001b0a_801b0b_001b35_001b0c_801b0d_001b35_001b0e,
   0x801b11_001b35_001b12_801b3a_001b35_001b3b_801b3c_001b35_001b3d_801b3e_001b35_001b40,
   0x801b3f_001b35_001b41_801b42_001b35_001b43_801e36_000304_001e38_801e37_000304_001e39,
   0x801e5a_000304_001e5c_801e5b_000304_001e5d_801e62_000307_001e68_801e63_000307_001e69,
   0x801ea0_000302_001eac_801ea0_000306_001eb6_801ea1_000302_001ead_801ea1_000306_001eb7,
   0x801eb8_000302_001ec6_801eb9_000302_001ec7_801ecc_000302_001ed8_801ecd_000302_001ed9,
   0x801f00_000300_001f02_801f00_000301_001f04_801f00_000342_001f06_801f00_000345_001f80,
   0x801f01_000300_001f03_801f01_000301_001f05_801f01_000342_001f07_801f01_000345_001f81,
   0x801f02_000345_001f82_801f03_000345_001f83_801f04_000345_001f84_801f05_000345_001f85,
   0x801f06_000345_001f86_801f07_000345_001f87_801f08_000300_001f0a_801f08_000301_001f0c,
   0x801f08_000342_001f0e_801f08_000345_001f88_801f09_000300_001f0b_801f09_000301_001f0d,
   0x801f09_000342_001f0f_801f09_000345_001f89_801f0a_000345_001f8a_801f0b_000345_001f8b,
   0x801f0c_000345_001f8c_801f0d_000345_001f8d_801f0e_000345_001f8e_801f0f_000345_001f8f,
   0x801f10_000300_001f12_801f10_000301_001f14_801f11_000300_001f13_801f11_000301_001f15,
   0x801f18_000300_001f1a_801f18_000301_001f1c_801f19_000300_001f1b_801f19_000301_001f1d,
   0x801f20_000300_001f22_801f20_000301_001f24_801f20_000342_001f26_801f20_000345_001f90,
   0x801f21_000300_001f23_801f21_000301_001f25_801f21_000342_001f27_801f21_000345_001f91,
   0x801f22_000345_001f92_801f23_000345_001f93_801f24_000345_001f94_801f25_000345_001f95,
   0x801f26_000345_001f96_801f27_000345_001f97_801f28_000300_001f2a_801f28_000301_001f2c,
   0x801f28_000342_001f2e_801f28_000345_001f98_801f29_000300_001f2b_801f29_000301_001f2d,
   0x801f29_000342_001f2f_801f29_000345_001f99_801f2a_000345_001f9a_801f2b_000345_001f9b,
   0x801f2c_000345_001f9c_801f2d_000345_001f9d_801f2e_000345_001f9e_801f2f_000345_001f9f,
   0x801f30_000300_001f32_801f30_000301_001f34_801f30_000342_001f36_801f31_000300_001f33,
   0x801f31_000301_001f35_801f31_000342_001f37_801f38_000300_001f3a_801f38_000301_001f3c,
   0x801f38_000342_001f3e_801f39_000300_001f3b_801f39_000301_001f3d_801f39_000342_001f3f,
   0x801f40_000300_001f42_801f40_000301_001f44_801f41_000300_001f43_801f41_000301_001f45,
   0x801f48_000300_001f4a_801f48_000301_001f4c_801f49_000300_001f4b_801f49_000301_001f4d,
   0x801f50_000300_001f52_801f50_000301_001f54_801f50_000342_001f56_801f51_000300_001f53,
   0x801f51_000301_001f55_801f51_000342_001f57_801f59_000300_001f5b_801f59_000301_001f5d,
   0x801f59_000342_001f5f_801f60_000300_001f62_801f60_000301_001f64_801f60_000342_001f66,
   0x801f60_000345_001fa0_801f61_000300_001f63_801f61_000301_001f65_801f61_000342_001f67,
   0x801f61_000345_001fa1_801f62_000345_001fa2_801f63_000345_001fa3_801f64_000345_001fa4,
   0x801f65_000345_001fa5_801f66_000345_001fa6_801f67_000345_001fa7_801f68_000300_001f6a,
   0x801f68_000301_001f6c_801f68_000342_001f6e_801f68_000345_001fa8_801f69_000300_001f6b,
   0x801f69_000301_001f6d_801f69_000342_001f6f_801f69_000345_001fa9_801f6a_000345_001faa,
   0x801f6b_000345_001fab_801f6c_000345_001fac_801f6d_000345_001fad_801f6e_000345_001fae,
   0x801f6f_000345_001faf_801f70_000345_001fb2_801f74_000345_001fc2_801f7c_000345_001ff2,
   0x801fb6_000345_001fb7_801fbf_000300_001fcd_801fbf_000301_001fce_801fbf_000342_001fcf,
   0x801fc6_000345_001fc7_801ff6_000345_001ff7_801ffe_000300_001fdd_801ffe_000301_001fde,
   0x801ffe_000342_001fdf_802190_000338_00219a_802192_000338_00219b_802194_000338_0021ae,
   0x8021d0_000338_0021cd_8021d2_000338_0021cf_8021d4_000338_0021ce_802203_000338_002204,
   0x802208_000338_002209_80220b_000338_00220c_802223_000338_002224_802225_000338_002226,
   0x80223c_000338_002241_802243_000338_002244_802245_000338_002247_802248_000338_002249,
   0x80224d_000338_00226d_802261_000338_002262_802264_000338_002270_802265_000338_002271,
   0x802272_000338_002274_802273_000338_002275_802276_000338_002278_802277_000338_002279,
   0x80227a_000338_002280_80227b_000338_002281_80227c_000338_0022e0_80227d_000338_0022e1,
   0x802282_000338_002284_802283_000338_002285_802286_000338_002288_802287_000338_002289,
   0x802291_000338_0022e2_802292_000338_0022e3_8022a2_000338_0022ac_8022a8_000338_0022ad,
   0x8022a9_000338_0022ae_8022ab_000338_0022af_8022b2_000338_0022ea_8022b3_000338_0022eb,
   0x8022b4_000338_0022ec_8022b5_000338_0022ed_803046_003099_003094_80304b_003099_00304c,
   0x80304d_003099_00304e_80304f_003099_003050_803051_003099_003052_803053_003099_003054,
   0x803055_003099_003056_803057_003099_003058_803059_003099_00305a_80305b_003099_00305c,
   0x80305d_003099_00305e_80305f_003099_003060_803061_003099_003062_803064_003099_003065,
   0x803066_003099_003067_803068_003099_003069_80306f_003099_003070_80306f_00309a_003071,
   0x803072_003099_003073_803072_00309a_003074_803075_003099_003076_803075_00309a_003077,
   0x803078_003099_003079_803078_00309a_00307a_80307b_003099_00307c_80307b_00309a_00307d,
   0x80309d_003099_00309e_8030a6_003099_0030f4_8030ab_003099_0030ac_8030ad_003099_0030ae,
   0x8030af_003099_0030b0_8030b1_003099_0030b2_8030b3_003099_0030b4_8030b5_003099_0030b6,
   0x8030b7_003099_0030b8_8030b9_003099_0030ba_8030bb_003099_0030bc_8030bd_003099_0030be,
   0x8030bf_003099_0030c0_8030c1_003099_0030c2_8030c4_003099_0030c5_8030c6_003099_0030c7,
   0x8030c8_003099_0030c9_8030cf_003099_0030d0_8030cf_00309a_0030d1_8030d2_003099_0030d3,
   0x8030d2_00309a_0030d4_8030d5_003099_0030d6_8030d5_00309a_0030d7_8030d8_003099_0030d9,
   0x8030d8_00309a_0030da_8030db_003099_0030dc_8030db_00309a_0030dd_8030ef_003099_0030f7,
   0x8030f0_003099_0030f8_8030f1_003099_0030f9_8030f2_003099_0030fa_8030fd_003099_0030fe,
   0x811099_0110ba_01109a_81109b_0110ba_01109c_8110a5_0110ba_0110ab_811131_011127_01112e,
   0x811132_011127_01112f_811347_01133e_01134b_811347_011357_01134c_8114b9_0114b0_0114bc,
   0x8114b9_0114ba_0114bb_8114b9_0114bd_0114be_8115b8_0115af_0115ba_8115b9_0115af_0115bb,
   0x811935_011930_011938]).map fun (first, cells) => (first * 0x1000000 + cells.headD 0, cells.drop 1)

def nonStarters : Table := .ofRows <| Table.rowsOf
  [0x8000a8_0000a8_000000_000001_8000af_0000af_000000_000001_8000b4_0000b4_000000_000001,
   0x8000b8_0000b8_000000_000001_8001c4_0001c6_000000_000001_8002d8_0002dd_000000_000001,
   0x80037a_00037a_000000_000001_800384_000384_000000_000001_8009be_0009be_000001_000001,
   0x8009d7_0009d7_000001_000001_800b3e_000b3e_000001_000001_800b56_000b57_000001_000001,
   0x800bbe_000bbe_000001_000001_800bd7_000bd7_000001_000001_800cc2_000cc2_000001_000001,
   0x800cd5_000cd6_000001_000001_800d3e_000d3e_000001_000001_800d57_000d57_000001_000001,
   0x800dcf_000dcf_000001_000001_800ddf_000ddf_000001_000001_800f77_000f77_000000_000002,
   0x800f79_000f79_000000_000002_80102e_00102e_000001_000001_801161_001175_000001_000001,
   0x8011a7_0011c2_000001_000001_801b35_001b35_000001_000001_801fbd_001fbd_000000_000001,
   0x801fbf_001fc0_000000_000001_801ffe_001ffe_000000_000001_802017_002017_000000_000001,
   0x80203e_00203e_000000_000001_80309b_00309c_000000_000001_803133_003133_000001_000001,
   0x803135_003136_000001_000001_80313a_00313f_000001_000001_80314f_003163_000001_000001,
   0x80326e_00327e_000000_000001_803304_003304_000000_000001_803307_003307_000000_000001,
   0x803310_003310_000000_000001_80331e_00331e_000000_000001_803321_003321_000000_000001,
   0x803332_003332_000000_000001_80333b_00333b_000000_000001_803340_003340_000000_000001,
   0x80334b_00334b_000000_000001_80334e_00334e_000000_000001_80fba4_00fba5_000000_000001,
   0x80fbb0_00fbb1_000000_000001_80fc5b_00fc5d_000000_000001_80fc5e_00fc63_000000_000002,
   0x80fc90_00fc90_000000_000001_80fcd9_00fcd9_000000_000001_80fcf2_00fcf4_000000_000002,
   0x80fd3c_00fd3d_000000_000001_80fe49_00fe4c_000000_000001_80fe70_00fe72_000000_000001,
   0x80fe74_00fe74_000000_000001_80fe76_00fe7f_000000_000001_80fe81_00fe8c_000000_000001,
   0x80fef5_00fefa_000000_000001_80ff9e_00ff9f_000001_000001_80ffa3_00ffa3_000001_000001,
   0x80ffa5_00ffa6_000001_000001_80ffaa_00ffaf_000001_000001_80ffc2_00ffc7_000001_000001,
   0x80ffca_00ffcf_000001_000001_80ffd2_00ffd7_000001_000001_80ffda_00ffdc_000001_000001,
   0x80ffe3_00ffe3_000000_000001_811127_011127_000001_000001_81133e_01133e_000001_000001,
   0x811357_011357_000001_000001_8114b0_0114b0_000001_000001_8114ba_0114ba_000001_000001,
   0x8114bd_0114bd_000001_000001_8115af_0115af_000001_000001_811930_011930_000001_000001,
   0x81f213_01f213_000000_000001]

end TenantQuery.Text.Composition
