import Noxipher.Crypto.Fields

namespace Noxipher.Poseidon

/-- The first row is added before the rounds, row `r+1` at the end of round `r`. -/
def ROUND_CONSTANTS : List (List Nat) := [
  [0xA59176C702E80BDE6789030868B74DA429EB1495835F5D0118A2E2F65548257,
   0x1F04EE09B99D7D10CD8E8A5A5BAB4BF2D304DBBF24127D23933A2A02FE51CFBD,
   0x53B0AEE6A9E41F529188D639E301A4C9F1A2E780AA10C20AF5280F50ADC5473],
  [0x607FC613870D7F56E456A0C7F190FB8167EABA96E2391951AEF7D48879BF3F9C,
   0x65934D47F091E18113F99939A0E34559A697EC84B5DE486EB5A4CB05DAA7F2FB,
   0x18E896FA20C621A98EFAF9A4EED147894FEC13728D5ACAD5A853BCD1196B63F9],
  [0x69FA9AFCF3C3AD0017C4ED67263148C9E47A7C26814796D2E336BE30A84FD950,
   0x7176D3B8287939B95C976E456BFB407B1247D3BCF972CBD78E58CFB641A9262D,
   0x36D041C5EBEFE99FFC05E3B37BA7F8B41F202D7EF0B284A63E66973DDC39A01],
  [0x5D0542CC31DE7433013B15AEB4C20921505716329FFBE5A2732D042EDF0A816F,
   0x2665FB26CCC68131B804665D8913BE00F2FA23B37FDEB25F42F909F2538A8C12,
   0x3CE3705A685C5889E7BB046E5C800ECB69773C31BB4D95AF9D083D3C6F9A8BA7],
  [0x4EC6EC86094AA88EFA9125E2D77416E3D4FDB7FD68C02865AF1E7963D544963D,
   0x4C0B32AAEC6F011DCCEADEE1DEBEDF9A2ABDA9E84060420C2FDDB51C3D7FB35,
   0x16275C9229FA151E6A220541769C55E1024D20B043FF21F84F78B4997D6AFE55],
  [0x150813E5512F10EFAF94BAF57D0F8B00B4F7A93140B437B8C10327CCA38B8745,
   0x5F066147B29DB1E24363DF569EE360EC36923304DD5DF570FEFD9FDBEF6343C2,
   0x115AE3A31CE245BA3FCF9218725A5B20C4FB015DE0EF9F5D8F7A2080716660D5],
  [0x3276DE65C29A45F3038950C0FD5D79E3937BB2DBF2F93D69E5E14B22A414394E,
   0x4C5049800CEBEB0B35F477AF6855CCA6133EE041CC42B62D92F8AD5AD2B548BF,
   0x252E1B549C72EAF34196C8AEC67A4BBA2D0F8B3D41C93057B21CDB491FAE2B78],
  [0x5A0A0F27CFBCFE7F34695560858C35D6BE3F87E74AE1C0A0EDADC78379D22A7C,
   0x5AEF41FE39FFBD0BFD334689E12AEBF20AC198DCB30364D8B551ED86D4E01199,
   0x2FF7EE574D7A9680D4CD5D839E7FCE4FBDC6693387A4566A538AEB0616DA4DB9],
  [0x599530BBBCA9C7913FDEDF2E426982CE05BAFBB61E57B5FE4252D5A560FB7C44,
   0x594AFD99C63E07410BB9A8BC21A256D4A88DF20CEE4568860436DD18BC6B3086,
   0x561BC2BC056A1DDBAB6ACF327FFCB56AC7C9B266EEB91EB48CBCBE421122BF2C],
  [0x44B0F629FEE30F4A697371A15B9F311095F890288588A97B185053E39B03E4C0,
   0x6666BC362A7600C81B78E5D597624815E90813D942F6E4829B13ECCE3F00A744,
   0x39491594D7AD80492DEBB00212D21C6AD3FA35F5BFE28C4A2020EB7365B77289],
  [0x687ABAF484907604ABEBC0EAD0263AFA38AB73133269C2A856383A59FBA6582C,
   0x31A920A0D66D0D377A294F24D0FFB8863773B560616A25CC6A4E6B1E7B1516CE,
   0x43D0F81A73AADD11C628F5FC5C7B67B4F844DE5B3CEDFEDF3103A411A5884A28],
  [0x3EB3C82BABA6CFFA1871A5A4ED874D585C457A53F502E257289DD9440136B819,
   0x33196EDED0BAD8749BED66B6B26F69C8D75E5A257BA153AE797C6D0B50577E09,
   0x43D26AAF7D308DD37BC0731AB785E50E7A183C0AE3C6C806CAD29B7A3A549811],
  [0x53CAD4124A934629053D44D34D5F0A8C25E54C55C39F4333C2F6F15337EDA387,
   0x3EAFD6B777C1020AF707E4F26F512BB4CC885E01E325F8C5793E1F4CD575F356,
   0x5320202EC4306A0E195BAFC2E7B8E3B0669389E8EC353453B7BE9040AB9F0930],
  [0x587B91DF800F3B96B03D4E4AA99D28D6A984E31926DA934D0888AD8E0D0B26B0,
   0x2BFCCC7EB78758470367BBA616B6F15E2553AA69E1650B001BDB88D1F3F98F82,
   0x1422F2E0C54874CF6D17B675D5AB9C20DB3CE9B7D78E7F5EE12DBB3F43819D4A],
  [0x28FD84A2EA3A1A2F063D9FCF254042DD7183FC00C7E603CBF7152A0EB0B49C4C,
   0x28BFCD29B81C11EB13DAF41FFF095DFE391ACF13F9D2133C238125D544114B57,
   0x5586C4C0ED8EB5EA35038BAB8FA67760C98826B5090503FDCC54DF70F7ABFF3F],
  [0x1209367F03EC621673155B2C65E8F34387425D23BF73E9EDFA498415A68BAB26,
   0x22356B2D3215F6D37DEE00FD7EB23B5E7B3E8A417376BEF1DF790964B607B733,
   0x6C163CB4EB4D8C5FC4808135D3DA4A6A09C8C0C1F2684A7F3BEFB040FD226672],
  [0x4DC3C04E25FD48F7BD3E5E4C78B495A46A6C81F295164F5D6759A09C9E48C33A,
   0x590D9DF429EB3511A7196E06F669BA8836651145E9BCBAF2ADA0FAF9DD9AE7FB,
   0x2FF2936810A3DF287B47055486D6811D13D1FF2AC6C24257B8ED94C2DBCA098A],
  [0x5F5249A771D9E4B1C4BC95B4E2AD56E740B52F60797E3E32D178BE886991FA0C,
   0x67F78E07CF6EBBEE0EC4E3167DB3DA0E2D988D1B18E9BB54E1BA7CC34E02FB27,
   0x2B9EA3BD9788C6AA63A16B72D95E2B0061F9BE1C5583D9FEA0B4E9FB1BB7A762],
  [0xA1BAF17CBED21CCF0415F5E01D433BBBD8F0407342A67FE4A4373EBF0EE59D2,
   0x1CBFCEA2EB30561DE620A26B7A5E3074F856D3C90B04EE14784962EFB0DE7977,
   0x39C9CB51D25806804AFEF26848CDCE06E7FC90A225C1CE9FC86FD84B8A51045F],
  [0x424D5E34E4C177E2899A7C2C2E7EF0432165DADCA284AC55C0BFCB7288A4D9E9,
   0x3387E8C65F283718D2BA7618E01144293DD96B9FAFD350BAD7923E77A03C082C,
   0x6526F1247E745F8003B2121D350DD4C450BF20B7A3BFD8E627E1FD2A26C6E775],
  [0x22C7394DDF7126E54B7BFBEFC8E99EBB18D160D0FAF5CBBC5F219A4281D69DD3,
   0x2EF6AC9BE994B37B69B78B0ACCAE10921403B73366381DCB4CFD81FE2AE754A1,
   0x4BE6A5C7D2F3DD4484247E7FB84E11547FD8222C3E3BED2502693C4C3175D977],
  [0x273ACA31807ED5DC4B5BC325E153609CE7E3E070E6BB88FA29185E69288509D2,
   0x2DB321CAE3A1AEB323B6F5057C3A1BF9F0EDCC30AB79E42EAD224692567A0137,
   0x45974424F4C12E52353301A448E030AB30363687091184B970991FB1A95A88CF],
  [0x4DBC8F3094C0B370BFE58C8E4EB3973928D75A683ADC61B364F1399D2EBE30C8,
   0x1B1C10F0E13F3C0F91A7410E1926B577905DA077FB2BF95DC4BA12CC2EB5C170,
   0x1ABBA6997ED71E4E369BE5D60EAD765E73A1056DDAAC586B160CAB9BF172C001],
  [0x3FFA9FFCE044D6ED784F66E27846140A5E406373B0702DF67CEC7E37A606146B,
   0x172D1EFBD333E2E3F2BA11F51954B80F20681C9873E8A6BBFB64A2CD7CDE1F3C,
   0x2544491582A91B8031491DEDBAAF880B8E249C510F305766BD9C09B893D26E7E],
  [0x598EA1D2111DE9B952A00A5CE7291A5CF39E54B1CE603D0F8134AA241672BA80,
   0x30D01564A8F6E2C8C18F31A9956BD45FAB4B4CB938ED769EB32F3AEF037D58E5,
   0x58E0DE1FFA9F39D54F9CC5E844BB2AF3C16D26CE4CD2F348076CA06F98C93EF9],
  [0x45B892043E1E1258E264673EA5FCF9FF49D8570C351D6CF8A488FE7F7F058BAB,
   0x2B80D5A4800EDE3EAFF5D3FECC451B7320D22D5A211E162CAC90DE860B794521,
   0x419D06202B190907411D441C46EBB46405F35E4F26E9EF7458359366DFB7DA17],
  [0x3D0755343ED409E224E18F11B7276D17373BCF0D9B949E163AB54A62D2D82D42,
   0x53CB0D8F5428A5DCAAC8DBBA1B9D9558C6BB7933EE656745D5CE8FD413ED1B84,
   0xB07C5E935D3CD60CD2E366778C3FCDAB47617D63649E1B8F189C94AC782D122],
  [0x2E5E97FA75DA2AAA046697B1DD6D31C4F97AAB56F5D03DB898A8F2394624E738,
   0xA048FF94CD9E028511C620E69DCF4C1AB07290EB1E7278137F086140354CAFA,
   0x1743436832D1570B5282CE32C734068B8E96693F8E3537FC556B37306CB7147C],
  [0x28F3EA486B86E75B3C04B8CFB889E8BB688B24F29140490B295F63951707CBA9,
   0x150DBFB69D9FCDF913928401B81DE81C91E61BE6F4CDACD7B8431E2A7D6D2EAC,
   0x29CA3439450DA375A0D5DE427B2213742DB5E0EABD2BF735243FA1295CEA4402],
  [0x48A1B62B76A65FCBFBC8C210D7B27BF286B6CDDE0CB950DA215608937A664DCB,
   0x218EB6AF24341ECD69C266E697C027B4D0AE206EC6A690AA562CE223E9F38ED,
   0x9A3B38EF1E13493507815D55883CA475124A9F82BCE00EDE4091DDB34F3D8BC],
  [0x174086A2D1896A822D659C85DACFE7F85DBAD9B32A8485876D6CB7F20F63881B,
   0x23FD11B6EEFBF7653E1FEFB8196EAA6F1D32F285241A7E351A353BA6F85FF3CF,
   0x492818BA02401999004383CCD61A90599E5E1B7703C1CC2F4DC9831405A3333B],
  [0x173B8905492A145A31885B01843ABF568EA3272531B097FB2BB26A8E035E725,
   0x43D57042F3BBC227AF5C9BDBEEF0A4D4DA2F294779DF27E040DEB8D09888E12C,
   0x17EFE956B72EEC83BABAFAC166EB141085A8B3FF611CD0D2A8136FDF837ED979],
  [0x26999862AD401AE317B45C227C1554EF86E5510B5092FD883D8F04AA042CF9A,
   0x7781051841804341E05DD239AAAE3FB91801D1AC15655EF88E48D34BB69B85B,
   0x69461896429E17F3FA483B5BF6B000E90ECBFFD7D2E082EE13D17AD81B96ABC5],
  [0x318EB690FBAA314B0F168EE033B365A197D89280F16BD6D4FEC48B88341DD4A,
   0x23EE6EFBF70B755ED68077FA25B76D560AC014D178F2D32C397AF4B70433D509,
   0x6029A2C1FC7AF40DE77595585D4A2B2E8442455A6605E05439D1B1F5091EB0F4],
  [0x6585FCC2A5D8911DE79473AFCA0A254D4E209344021CD7E0B5A5F74EC6BAB5ED,
   0x6EC3A9EDAFD98F358EE976C1F8B72DC706DB76C721119E4AB1681F7A565C241A,
   0x2C9C92022887A2EB6DCAA9C50BDBBC3D7C74FC8301B013ACA8CB7D6F3A4B6FBD],
  [0x87FDBF07402D34F8E5E0029A10E5F838D4790775A12CE8BE4B786BFD6DB1B7E,
   0x5A833FDDCA878175BAF0E07B102B45E6152AC3AC547D85E3A8D88E01B9E7400,
   0x6DE15CD7BD3E51F52D023F3B9FC0FFC69FF5FCBA82032EEF52DC6334F7ACD315],
  [0x2E4E3978E7AA100B0360BEA6B324B1896C12B3B12B70F319D389DBD166ADEE91,
   0x59D46AA16CC7B82BF202F74B70D017254335B58527D8FF6A601F620EECDD6EA5,
   0x47B04FB83795A3AD5DD5AE1487FEB5DC352B0B9552D7CC42E90C3FF58F2E3186],
  [0x72EB9AAB40A2D32FA89F435AF48BAB23E68574D9806E339E51B0F50EA729062E,
   0x52B5BA581B504F06A6F01A1216B44D4612F266A8A7594ACEBE97290F563FC237,
   0x2092FFA4F7908DF306F038AC0BF6A36E6EC2AE832C8513DE0C870A17E0BC0960],
  [0x29FE3FB0741E8E21515ACAC5052D3E1DEB6BD985D87407AB4244F2B44CDE4D4D,
   0x47D889A4289EF4A67890654D3115CCAC5FD67B54FDB5C38F3645ED787D1AD236,
   0x40E5E4942CEBC127A0FECE1450B0A5B6004B84DB2F2DF5EDEB39D01CEB65595C],
  [0x56035841AAC5C65986712C50B1EA963E2309D0C4C1FB80D87C3FCF3AF6F4B389,
   0x261E6F4975A712E907F602B324F92B3E921F4F6D3B1C0E0B442451897806D131,
   0x18BD7110CFEBBEF4A49C63F1DFF149DAB7177D488031AC1EE46F6EDA2EDA4A56],
  [0x6C06AC407BEE2048E6511C03BBA020A2E0E481D324D2056B48F68EED1D604A85,
   0x4EEC84A86E66BC096B39FC3B05B0CFB5CEE4012ADC69ABAFC9203B16FD56092F,
   0x70E69933021AED26A65B8082C7382D7386825E2BC42EC161AEE93D10F362A1E7],
  [0x66636FDF9C4445EAC58FA9E2711BEA36CB03527358F6B730087E6FCB651350D4,
   0x4585347A49F6D01D14557CA129CEAE003E3CDBB76D723E535DBA9774AB09BC2C,
   0x1858CF26643EA1B60E58A69359324501DDAEDF7AE41B7E2625D1B3D70ABCB9FD],
  [0x678F451DC9831F6DCD8108AEDCFB530E47EAC18F226869A4ADCC991136BD8AFC,
   0xE77C6CDC6C06D5D6C67646EC528589185A80566DC3F6F97ACCEBF1A6089D552,
   0x136F33C72BBCC8B0A2D32916FC45227AACEF8AF8AC7DACCCB37384A880FB6CB1],
  [0x2CAFABF1ACC2E27503D9A550E3A9E63A1786F0FFD7D09AC78453C722025930C,
   0x13C505EE9B01A5DE1C481CAA15D90621709BC6671AC0E3C5F28DD69419CC0258,
   0x633BE5C877B5DF79D9F9633C9F828B207D1529834DC9BAA4051DCC916C640C54],
  [0x2910A5368E54F10A87893B684732B3F7280E97EB2CF2A32D607F932B132C86C3,
   0x5CB6AD2F1E64242EE4B3DD2816B3D02B4CDD8DED9D4E97407F4BC322A0E96559,
   0x3EF03AC708687736DD5995EF99EDE54FEBD9085946D64024BBBB2A0F08030B0A],
  [0x32C2F6F28415BA957CE7737889E42CDCA175C7C8E7576F660ED9B34B932C9110,
   0x2C189965A7CFDF221A8DADDAFEB8E875711664A9DCFF920F0817973B2D1BFC54,
   0x61549E7076BC0EC827C1BC735AE788A318EE100A9D5C3A7CCB3E5D9F7F5C8CBB],
  [0x25D4DE96DC1FB7489F81D2F3EC2C75C30A43DB78940719A98C8D287112DED73C,
   0x660B191498F98F6D2D22BF5FCA5A898D64575B514200B70108231132DE503A87,
   0x1CC527B5AD13CE381DC3C4C568A857E345E8D1CE6A67B6B2902565CF298CBDEE],
  [0x321FF3C8D2E92D6B1E1C2B9E79D691D604A34AD3F42A6C128DF3D7F77ADA1C1B,
   0x1D8F004234F9F2C1E357AC34363C594E313E5C31AA32D76FD91DF895D330781F,
   0x4544D6C8FD4C78760446287D24D238FFCFC00A2896C967EE3585BECFC3DCFCB7],
  [0x20A08D0A53248FB2BCB00E5FAF8F4B4FE46D8B80253790E957204BC1FDBEE339,
   0x36B5C2157325963C5E0453639AD0B521666C4722ED13BDC1E3E305CD94D76D8F,
   0x43B12F2B4650DCF172A7FDE90260833A4FF3B60F8528FBD1BB6D545B49376A47],
  [0x1958C4C97A4591E3F3CD7F88337202B2642839D25D3847A320C3448EB45ED06,
   0x53C464393BB50B0BCBD3257A17775B5C32963AF1044162DB6EDAB928444B3E7E,
   0x483F8C118F74A356521D2B9739DF85D86B65EC6AA08BE9081738552FF7384841],
  [0x3663C6A81BD88AFFA99E39BDA4305282FE74399D501E034A40F135EB397B7EC6,
   0x1B9FBA695A3D96BA9ABB42A1414E53C95E1E184B3CC26A9466F71916C8D35CAB,
   0x6BB3E27E0010B3FA24A32F4F86C692B950E50CE53ED8C5EFD905B9D02E6588FB],
  [0x53811E5C719949320CE246DA6FBD361500A235D00FBF4AA0313A0C5B67B58178,
   0x593355B80017775F8041D0855320D5C416D2513E975EE91A4DAB78E754968366,
   0xB210AB63AE1EF1733F2C514891A6B805286193B33A64FA4FA6E496C38DF5908],
  [0x26F1380E7749597603F85E7B8274358B07F11774903002A44188A810D03E27A1,
   0x351D89C1323633277EDC64F72FAFC3BC70FB3BDB2A8A94DF4CAA6B4495775AC,
   0x39A779414A823F70B80296066480671E9D37D70623AB6C5CAF04EAA971B35CEF],
  [0x33F8E6941A0B05B77D3FC14A0952E330357851790C21F2E4BAB98527F60E1DD5,
   0x3936D272DB72A892F2A570F87857377A955E3CB28FE44D5F3F97EDDC2D38F4DC,
   0x258483D9D19D0C37C428242A7866385923BC6365CBAB50508C33154F3259E6C9],
  [0x7306E10DBDDE898545E136808FEEE64D8C0749038BFA99DE95479A059076FCEE,
   0x3A0A3284577A03CED48B8B392FEAFBC57C4B5119D9EFC7D1840639E74ED07FB1,
   0x4D883DCA911102D3DD796B7D976BE2EB9298076D925DB5ED2B16B05ACD01F76A],
  [0x27FB982B0401726A916E3B79474CF2F52C7071A7E4A71DED11D1C7547016DB87,
   0x72BB4B20AB85F6FD89ED68EDA04D6B90FA8AE8385E37FBBA24EAA276C65EC2E6,
   0x2376BF81CBFFAC7A23DDF59DA272D1C3C81A18EAB76CEEBC4D0597FB566790F2],
  [0x9FB7DCAA11F71989614B4DFFAB857FC1F3C8E92E8635F7B4ECFAB3867EFBCD5,
   0x37D7A76844848C0513BAEF999CF1E919E410BFF73F017E5B3DD309AFC72DD3F4,
   0x6C28AC72A608DB7CB08AAA900CC863B1CF0F921F7AC10CA0A84326DF8777EA61],
  [0x6AC30872FB7AAEE2013EAC3BAB7A93070D40FB8A8512D534464D14EC76B59FBF,
   0x1588E343D1F27071A97F6F3C3BA966C2A7FA51E7CBAFB0D4202D520359796171,
   0x11DC280AB49A87372F252972BBD5776174E8CEB031755422553AF379CD3CAB09],
  [0x41FAC88D976838FD9B4B3CE58861C713DE83000E588A7845DCB48F0538B347BA,
   0x10B270AB826CC8A6AF0E362006F1DEDA44FBA7619D2475E78B55784DBA75B3A1,
   0x357D03D499C5B0BCD9B504D041A049334014F66C4F7DE094FA6A928E390EE657],
  [0x2B56BB5FCDE025A8D8E5B912FDBA2AB4C4FC22F8FF0F5868D4D1BCAD440FA453,
   0x37B4060A506B89DE55D375F0BB19EFDA08E5C84A24C48F369B4B3212EFBFD684,
   0x6B16708AC85AD545F6348A0FEFC48AC043925004D2E5CCFFF3029BBD4AA3E834],
  [0x40E07363E32D188498B22658E8AB19C20163EF6981CE0A61EE705DF4D63DD2E,
   0x1F70819C5672B60A753E090BD9946D36D6D4D9FB29B3B4209DCC60D605712CA,
   0x49F401E019B5DFAE8C27C96CF1D4EDC7D47EC2412EB1A648DA932C87AC1AFA27],
  [0x6CDA350DBB4C836AEC1CB87FFE25A5CA0EFF83E4D07B5DAA680555A6657568C8,
   0x5E9B6C888742774381EBA9C12CB18CE1E94C34FC7CC8546E0E509F26A38B2EB1,
   0x64E4B6B6C69C55D71974B72F8E070B9CC958B01A974CFC81F6757E2C0DB986C2],
  [0x5E70BB0B914984885BC4CAD7C234FB3C25983357D70CE29B3084ADD544027211,
   0x4D5A142A22A8104E2C1B3707B4717540FDA6002ABBA22F767E749A812A50492,
   0x432D2C0A5D1ACA3490AF53AD97808DCEECBBA1BC2D0D6C4E1350B3C4D1349D0B],
  [0x47D4BE891CE2EAC00DC15D103038792BE65A376F204EF21142B52B6B85A95ADB,
   0x6A58DFF965C936F7D7B1FF1C33DFAE8DA08725BDFDF977ADAFE49F2B748B15DF,
   0xCA63D92E3A6AB1192956418C5DB8FD0EA16016AA11E04A8CDA2906B9BDE9033],
  [0x3860771205E0B4DAD8D6B2350A2B957DF6297809EDE7870982B9848FDFDA72D2,
   0x3B1DDCA57831B77FC2B4CEBF388EE56412F9997B38F97DD8C4437B4D86469281,
   0x28930FBC794CCFA414982C23568B1A2CB120292BF198FC89F601A0591F2526A6],
  [0x525502D91ADC7315D35C74BAEBC1CC81D707B8AD7407ADA2AABEC122B3BFBC1,
   0x38D5F07361B5153604BBFB3D55E8CFE5C9C6F9EC10A352E0280209E63F700A87,
   0x29096840D2D9661A5A26AFF1BAB07F5042B5E2D7828719C15A1DC88CB0527837],
  [0x5288306AEAF63127F55E9CF680B3687132ED663EECA4CD346FF9F8885E4399E2,
   0x5B76B9DEABC355B3A16664C2F7AAEC2E70638C1A79B92D0584BD2AC8620B1590,
   0x5765C36EC0815219D5921194BD4772E44E4B16437D9867E4576DE696122A21D0],
  [0x63BD27F4167361B76FEE7C5EAB52BBE28E54AEE2CB9AEB3DCEAB1A0F2ED22C92,
   0x25E8EA5007238576C9FCB5C8DDC8A5C6C78C753AF39CBE93C113F681E5CC463,
   0x276A44612816867D3444E04B93103593C1FF831F5FFF2C1CB5EFAB3C32C8B4A0]]

/-- The mixing matrix. -/
def MDS : List (List Nat) := [
  [0x1B8114C381B922FD5D6D241210E2D8A68AD5744053BA9E776118DE4107B51ACE,
   0x3DF32E4CC4CB2ED20E5D21899CF5331775990CCAEC4C09B4E3717213FCC0D763,
   0x3F05C4DF7A6664DABE258779BF548EB4007F33601591080B3ECD34AEA0E1EDC1],
  [0x404D21073985D14E432A4AD76D3FAE06CA74314B950FE7B1D7F501CD31A8B374,
   0xB2CC8704264C6BD81BC620E9E524D4B73E9B2317679422FF7FA1603955649F1,
   0xFDF664DA55059FA5A9388C641035D496D0BB519834348B4E2A8FC8C637F1A1F],
  [0x5E1D3DBECDA6214343E24A47F45C5D033197AD01B65A730AF95DC57E90C49140,
   0x6BD72F9CFC53AF9D931896E77EA5C61244CB6D5FAE8954F37DC7B9002F5AA78A,
   0x4997C5AA3A5FA07BCAF880A9054BEF831EFFBD9CD58E46D9BB4FB88EF99DE0DB]]

end Noxipher.Poseidon
